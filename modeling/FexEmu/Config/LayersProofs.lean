import FexEmu.Config.Layers
import Mathlib.Data.List.TakeWhile
/-!
# Configuration layers, proofs

Each option of the meta layer depends on the same option of the layers alone, through the merge and through the fix ups.
-/
namespace FexEmu.Config
open Option (map_some filter_some map_eq_some_iff all_some)

variable {h : Host} {m m' : LayerOptions} {o o' : ConfigOption} {layers : LayerType → Option LayerOptions}

/-! ## Operations on options -/

@[simp] theorem set_self (d : String) : (m.set o d) o = some ((m o).elim (.single d) fun v => v.emplaceBack d) := by
  simp only [LayerOptions.set, Function.update_self]
  cases m o <;> rfl

theorem set_of_ne (d : String) (hne : o' ≠ o) : (m.set o d) o' = m o' := Function.update_of_ne hne ..

@[simp] theorem erase_self : (m.erase o) o = none := Function.update_self ..

theorem erase_of_ne (hne : o' ≠ o) : (m.erase o) o' = m o' := Function.update_of_ne hne ..

@[simp] theorem eraseSet_self (d : String) : (m.eraseSet o d) o = some (.single d) := by
  rw [LayerOptions.eraseSet, set_self, erase_self]
  rfl

theorem eraseSet_of_ne (d : String) (hne : o' ≠ o) : (m.eraseSet o d) o' = m o' := by
  rw [LayerOptions.eraseSet, set_of_ne d hne, erase_of_ne hne]

@[simp] theorem get_eraseSet_self (d : String) : (m.eraseSet o d).get o = some d := by
  rw [LayerOptions.get, eraseSet_self]
  rfl

@[simp] theorem get_erase_self : (m.erase o).get o = none := by
  rw [LayerOptions.get, erase_self]
  rfl

theorem get_congr (h : m o = m' o) : m.get o = m'.get o := by rw [LayerOptions.get, LayerOptions.get, h]

theorem optionExists_iff : m.optionExists o = true ↔ (m.get o).isSome = true := by
  rw [LayerOptions.optionExists, LayerOptions.get, Option.isSome_map]

theorem foldl_options {f : LayerOptions → ConfigOption → LayerOptions} {g : ConfigOption → Option LayerValue → Option LayerValue}
    (hf : ∀ m o o', f m o o' = if o' = o then g o (m o) else m o') (l : List ConfigOption) (hl : l.Nodup) :
    ∀ m, (l.foldl f m) o = if o ∈ l then g o (m o) else m o := by
  induction l with
  | nil => intro m; simp
  | cons a l ih =>
    intro m
    obtain ⟨hal, hl⟩ := List.nodup_cons.mp hl
    rw [List.foldl_cons, ih hl, hf]
    by_cases hoa : o = a
    · subst hoa
      simp [hal]
    · simp [hoa]

theorem mem_allOptions (o : ConfigOption) : o ∈ allOptions := by cases o <;> decide

theorem nodup_allOptions : allOptions.Nodup := by decide

/-! ## Merging -/

/-- The strings of a map, as a value of an option. -/
def valueOf : List (String × String) → Option LayerValue
  | [] => none
  | e :: rest => some ⟨e.1 ++ "=" ++ e.2, rest.map fun e => e.1 ++ "=" ++ e.2⟩

theorem toList_valueOf (l : List (String × String)) :
    (valueOf l).elim [] LayerValue.toList = l.map fun e => e.1 ++ "=" ++ e.2 := by
  cases l <;> rfl

theorem foldl_set_self (l : List (String × String)) : ∀ m : LayerOptions,
    (l.foldl (fun m val => m.set o (val.1 ++ "=" ++ val.2)) m) o =
      (m o).elim (valueOf l) fun v => some ⟨v.front, v.rest ++ l.map fun e => e.1 ++ "=" ++ e.2⟩ := by
  induction l with
  | nil =>
    intro m
    cases hm : m o with
    | none => simp [hm, valueOf]
    | some v => simp [hm]
  | cons e l ih =>
    intro m
    rw [List.foldl_cons, ih, set_self]
    cases m o with
    | none => simp [LayerValue.single, valueOf]
    | some v => simp [LayerValue.emplaceBack]

theorem foldl_set_of_ne (hne : o' ≠ o) (l : List (String × String)) : ∀ m : LayerOptions,
    (l.foldl (fun m val => m.set o (val.1 ++ "=" ++ val.2)) m) o' = m o' := by
  induction l with
  | nil => intro m; rfl
  | cons e l ih =>
    intro m
    rw [List.foldl_cons, ih, set_of_ne _ hne]

/-- The merge of one value of an option into another one. -/
def mergeEnv (h : Host) (value : LayerValue) : Option LayerValue → Option LayerValue
  | none => some value
  | some old => valueOf (h.iterate (lookupMap old value))

/-- The options that are environment variables. -/
def isEnv (o : ConfigOption) : Prop := o = .ENV ∨ o = .HOSTENV

instance (o : ConfigOption) : Decidable (isEnv o) := inferInstanceAs (Decidable (_ ∨ _))

def mergeValue (h : Host) (o : ConfigOption) (value : LayerValue) (old : Option LayerValue) : Option LayerValue :=
  if isEnv o then mergeEnv h value old else some value

theorem mergeEnvironmentVariables_self (value : LayerValue) :
    (mergeEnvironmentVariables h o value m) o = mergeEnv h value (m o) := by
  unfold mergeEnvironmentVariables
  cases hm : m o with
  | none => simp [mergeEnv]
  | some old =>
    simp only [mergeEnv]
    rw [foldl_set_self, erase_self]
    rfl

theorem mergeEnvironmentVariables_of_ne (value : LayerValue) (hne : o' ≠ o) :
    (mergeEnvironmentVariables h o value m) o' = m o' := by
  unfold mergeEnvironmentVariables
  cases hm : m o with
  | none => exact Function.update_of_ne hne ..
  | some old =>
    simp only
    rw [foldl_set_of_ne hne, erase_of_ne hne]

theorem mergeOption_apply (options m : LayerOptions) (o o' : ConfigOption) : mergeOption h options m o o' =
    if o' = o then (options o).elim (m o) (fun value => mergeValue h o value (m o)) else m o' := by
  unfold mergeOption
  cases hopt : options o with
  | none =>
    simp only [Option.elim_none]
    split_ifs with hoo
    · rw [hoo]
    · rfl
  | some value =>
    simp only [Option.elim_some, mergeValue]
    by_cases henv : isEnv o
    · rw [if_pos (show o = .ENV ∨ o = .HOSTENV from henv), if_pos henv]
      split_ifs with hoo
      · rw [hoo, mergeEnvironmentVariables_self]
      · exact mergeEnvironmentVariables_of_ne value hoo
    · rw [if_neg (show ¬(o = .ENV ∨ o = .HOSTENV) from henv), if_neg henv]
      split_ifs with hoo
      · rw [hoo, Function.update_self]
      · exact Function.update_of_ne hoo ..

theorem mergeConfigMap_apply (options : LayerOptions) :
    (mergeConfigMap h m options) o = (options o).elim (m o) (fun value => mergeValue h o value (m o)) := by
  rw [mergeConfigMap, foldl_options (g := fun o v => (options o).elim v fun value => mergeValue h o value v)
    (mergeOption_apply options) allOptions nodup_allOptions, if_pos (mem_allOptions o)]

theorem load_apply : (load h layers) o = (settings layers o).foldl (fun old value => mergeValue h o value old) none := by
  have hfold : ∀ (f : LayerOptions → LayerType → LayerOptions), (∀ m type, layers type = none → f m type = m) →
      (∀ m type options, layers type = some options →
        f m type = if type ≠ .LAYER_TOP then mergeConfigMap h m options else m) →
      ∀ (l : List LayerType) (m : LayerOptions), (l.foldl f m) o =
        (l.filterMap fun type => if type = .LAYER_TOP then none else (layers type).bind fun options => options o).foldl
          (fun old value => mergeValue h o value old) (m o) := by
    intro f hnone hsome l
    induction l with
    | nil => intro m; rfl
    | cons type l ih =>
      intro m
      rw [List.foldl_cons, ih, List.filterMap_cons]
      cases hl : layers type with
      | none => simp [hnone m type hl]
      | some options =>
        rw [hsome m type options hl]
        by_cases htop : type = .LAYER_TOP
        · simp [htop]
        · simp only [htop, Option.bind_some, if_false, ne_eq, not_false_eq_true, if_true, mergeConfigMap_apply]
          cases options o with
          | none => rfl
          | some value => rfl
  exact hfold _ (fun _ _ hl => by simp only [hl]) (fun _ _ _ hl => by simp only [hl]) loadOrder .empty

theorem load_of_not_env (ho : ¬isEnv o) : (load h layers).get o = highest layers o := by
  rw [LayerOptions.get, load_apply, highest]
  congr 1
  simp only [mergeValue, if_neg ho]
  rcases List.eq_nil_or_concat (settings layers o) with hnil | ⟨lower, last, hlast⟩
  · rw [hnil]
    rfl
  · rw [hlast, List.concat_eq_append, List.foldl_concat, List.getLast?_concat]

/-! ## Numbers -/

variable {c : Char} {v : Option String}

theorem digitValue_of_isDigit (h : c.isDigit = true) : digitValue c = some (c.toNat - '0'.toNat) := by
  rw [digitValue, if_pos h]

theorem isDigitOf_ten (h : c.isDigit = true) : isDigitOf 10 c = true := by
  have hc := Char.isDigit_iff_toNat.mp h
  have h0 : '0'.toNat = 48 := rfl
  have h9 : '9'.toNat = 57 := rfl
  rw [isDigitOf, digitValue_of_isDigit h]
  simp only [Option.any_some, decide_eq_true_eq]
  omega

theorem toDigits_head : ∀ n : Nat, 0 < n → ∃ c cs, Nat.toDigits 10 n = c :: cs ∧ c ≠ '0' := by
  intro n
  induction n using Nat.strong_induction_on with
  | _ n ih =>
    intro hpos
    by_cases hlt : n < 10
    · refine ⟨_, _, Nat.toDigits_of_lt_base hlt, fun h0 => ?_⟩
      have := congrArg Char.toNat h0
      rw [Nat.toNat_digitChar_of_lt_ten hlt] at this
      have h0 : '0'.toNat = 48 := rfl
      omega
    · obtain ⟨c, cs, hcs, hc⟩ := ih (n / 10) (by omega) (by omega)
      exact ⟨c, cs ++ [(n % 10).digitChar], by rw [Nat.toDigits_of_base_le (by omega) (by omega), hcs, List.cons_append], hc⟩

theorem basePrefix_of_ne {cs : List Char} (h : c ≠ '0') : basePrefix (c :: cs) = (10, c :: cs) := by
  unfold basePrefix
  split
  · next heq => exact absurd (List.cons.inj heq).1 h
  · next heq => exact absurd (List.cons.inj heq).1 h
  · rfl

theorem signed_of_digit {cs : List Char} (h : c.isDigit = true) :
    signed (c :: cs) = (digitsValue (basePrefix (c :: cs)).1 (basePrefix (c :: cs)).2).map Int.ofNat := by
  unfold signed
  split
  · next heq =>
    rw [(List.cons.inj heq).1] at h
    exact absurd h (by decide)
  · next heq =>
    rw [(List.cons.inj heq).1] at h
    exact absurd h (by decide)
  · rfl

theorem foldl_digits (cs : List Char) (h : ∀ c ∈ cs, c.isDigit = true) : ∀ n : Nat,
    cs.foldl (fun n c => 10 * n + (digitValue c).getD 0) n = Nat.ofDigitChars 10 cs n := by
  induction cs with
  | nil => intro n; rfl
  | cons c cs ih =>
    intro n
    rw [List.foldl_cons, ih fun c hc => h c (List.mem_cons_of_mem _ hc), Nat.ofDigitChars_cons,
      digitValue_of_isDigit (h c List.mem_cons_self), Option.getD_some]

theorem stoi_toString {n : Nat} (hpos : 0 < n) (hlt : n < 2 ^ 31) : stoi (toString n) = some (n : Int) := by
  obtain ⟨c, cs, hcs, hc⟩ := toDigits_head n hpos
  have hdigits : ∀ d ∈ c :: cs, d.isDigit = true := by
    intro d hd
    exact Nat.isDigit_of_mem_toDigits (by decide) (by decide) (hcs ▸ hd)
  have hcdigit := hdigits c List.mem_cons_self
  have hspace : isSpace c = false := by
    have hle := Char.isDigit_iff_toNat.mp hcdigit
    by_contra hs
    simp only [isSpace, Bool.or_eq_true, Bool.and_eq_true, decide_eq_true_eq, Bool.not_eq_false] at hs
    obtain rfl | ⟨-, hs⟩ := hs
    · exact absurd hcdigit (by decide)
    · have : c.toNat ≤ '\r'.toNat := hs
      have h0 : '0'.toNat = 48 := rfl
      have hr : '\r'.toNat = 13 := rfl
      omega
  have hvalue : Nat.ofDigitChars 10 (c :: cs) 0 = n := by rw [← hcs, Nat.ofDigitChars_ten_toDigits]
  have hall : (c :: cs).takeWhile (isDigitOf 10) = c :: cs :=
    List.takeWhile_eq_self_iff.mpr fun d hd => isDigitOf_ten (hdigits d hd)
  have hdrop : (c :: cs).dropWhile isSpace = c :: cs := List.dropWhile_cons_of_neg (by simp [hspace])
  have hsigned : signed (c :: cs) = some (n : Int) := by
    rw [signed_of_digit hcdigit, basePrefix_of_ne hc]
    simp only [digitsValue, hall, foldl_digits (c :: cs) hdigits, hvalue, map_some]
    rfl
  rw [stoi, Nat.toString_eq_repr, Nat.toList_repr, hcs, hdrop, hsigned, filter_some]
  have h0 : (-2 ^ 31 : Int) ≤ n := by omega
  have h1 : (n : Int) < 2 ^ 31 := by omega
  rw [decide_eq_true h0, decide_eq_true h1]
  rfl

theorem conv_toString {n : Nat} (hpos : 0 < n) (hlt : n < 2 ^ 31) : conv (toString n) = some n := by
  rw [conv, stoi_toString hpos hlt, map_some]
  congr 1
  omega

/-! ## Fix ups -/

/-- A step of the fix ups that may change one option. -/
structure Fixes (o : ConfigOption) (m m' : LayerOptions) (value : Option String) : Prop where
  frame : ∀ o', o' ≠ o → m' o' = m o'
  result : m'.get o = value

theorem Fixes.get (h : Fixes o m m' v) (hne : o' ≠ o) : m'.get o' = m.get o' := get_congr (h.frame o' hne)

theorem fixes_eraseSet (d : String) : Fixes o m (m.eraseSet o d) (some d) :=
  ⟨fun _ hne => eraseSet_of_ne d hne, get_eraseSet_self d⟩

theorem fixes_erase : Fixes o m (m.erase o) none := ⟨fun _ hne => erase_of_ne hne, get_erase_self⟩

theorem fixes_of_get (hv : m.get o = v) : Fixes o m m v := ⟨fun _ _ => rfl, hv⟩

theorem fixThreads_spec (hm : fixThreads h m = some m') : Fixes .THREADS m m' (some (fixedThreads h (m.get .THREADS))) := by
  obtain ⟨cores, hcores, heq⟩ := map_eq_some_iff.mp hm
  unfold uint32Opt at hcores
  subst heq
  cases hv : m.get .THREADS with
  | none =>
    rw [hv] at hcores
    cases hcores
    exact fixes_eraseSet _
  | some v =>
    rw [hv] at hcores
    simp only [fixedThreads, hcores, Option.some.injEq]
    split_ifs with h0
    · exact fixes_eraseSet _
    · exact fixes_of_get hv

theorem fixedThreads_pos : conv (fixedThreads h v) ≠ some 0 := by
  have hne : conv (toString h.nprocs) ≠ some 0 := by
    rw [conv_toString h.nprocs_pos h.nprocs_lt]
    have := h.nprocs_pos
    simp only [ne_eq, Option.some.injEq]
    omega
  cases v with
  | none => exact hne
  | some v =>
    simp only [fixedThreads]
    split_ifs with h0
    · exact hne
    · exact h0

theorem inRange_one : InRange h 1 := by
  unfold InRange minCoreNumber maxCoreNumber
  split_ifs <;> omega

theorem fixCore_spec (hm : fixCore h m = some m') : Fixes .CORE m m' ((m.get .CORE).map (fixedCore h)) := by
  unfold fixCore at hm
  split_ifs at hm with hexists
  · obtain ⟨core, hcore, heq⟩ := map_eq_some_iff.mp hm
    unfold uint32Opt at hcore
    subst heq
    obtain ⟨v, hv⟩ := Option.isSome_iff_exists.mp (optionExists_iff.mp hexists)
    rw [hv] at hcore
    simp only [hv, map_some, fixedCore, hcore, all_some, decide_eq_true_eq]
    by_cases hrange : InRange h core
    · have hnot : ¬(maxCoreNumber h < core ∨ core < minCoreNumber h) := by
        have := hrange.1
        have := hrange.2
        omega
      rw [if_neg hnot, if_pos hrange]
      exact fixes_of_get hv
    · have hout : maxCoreNumber h < core ∨ core < minCoreNumber h := by
        by_contra hnot
        exact hrange ⟨by omega, by omega⟩
      rw [if_pos hout, if_neg hrange]
      exact fixes_eraseSet _
  · cases hm
    have hnone : m.get .CORE = none := by
      cases hv : m.get .CORE with
      | none => rfl
      | some v => exact absurd (optionExists_iff.mpr (by rw [hv]; rfl)) hexists
    rw [hnone]
    exact fixes_of_get hnone

theorem fixCore_conv (hm : fixCore h m = some m') {v : String} (hv : m.get .CORE = some v) : ∃ core, conv v = some core := by
  have hexists : m.optionExists .CORE = true := optionExists_iff.mpr (by rw [hv]; rfl)
  rw [fixCore, if_pos hexists] at hm
  obtain ⟨core, hcore, -⟩ := map_eq_some_iff.mp hm
  rw [uint32Opt, hv] at hcore
  exact ⟨core, hcore⟩

theorem fixedCore_range {v : String} (hv : ∃ core, conv v = some core) : ∃ n, conv (fixedCore h v) = some n ∧ InRange h n := by
  obtain ⟨core, hcore⟩ := hv
  simp only [fixedCore, hcore, all_some, decide_eq_true_eq]
  split_ifs with hrange
  · exact ⟨core, hcore, hrange⟩
  · exact ⟨1, conv_toString one_pos (by norm_num), inRange_one⟩

theorem fixCache_spec (hm : fixCacheObjectCodeCompilation m = some m') :
    Fixes .CACHEOBJECTCODECOMPILATION m m' ((m.get .CACHEOBJECTCODECOMPILATION).filter fun v =>
      conv v = some 0 ∨ (m.get .CORE).elim (some 1) conv ≠ some 0) := by
  unfold fixCacheObjectCodeCompilation at hm
  split_ifs at hm with hexists
  · obtain ⟨cache, hcache, hm⟩ := Option.bind_eq_some_iff.mp hm
    obtain ⟨core, hcore, heq⟩ := map_eq_some_iff.mp hm
    unfold uint32Opt at hcache hcore
    subst heq
    obtain ⟨v, hv⟩ := Option.isSome_iff_exists.mp (optionExists_iff.mp hexists)
    rw [hv] at hcache
    have hcore' : (m.get .CORE).elim (some 1) conv = some core := by
      cases hc : m.get .CORE with
      | none => rw [hc] at hcore; exact hcore
      | some c => rw [hc] at hcore; exact hcore
    simp only [hv, hcore', hcache, filter_some, Option.some.injEq, ne_eq]
    by_cases hboth : cache ≠ 0 ∧ core = 0
    · rw [if_pos hboth, if_neg (by simp [hboth.1, hboth.2])]
      exact fixes_erase
    · rw [if_neg hboth, if_pos (by simp only [decide_eq_true_eq]; tauto)]
      exact fixes_of_get hv
  · cases hm
    have hnone : m.get .CACHEOBJECTCODECOMPILATION = none := by
      cases hv : m.get .CACHEOBJECTCODECOMPILATION with
      | none => rfl
      | some v => exact absurd (optionExists_iff.mpr (by rw [hv]; rfl)) hexists
    rw [hnone]
    exact fixes_of_get hnone

theorem expandPathIfExists_spec (o : ConfigOption) (m : LayerOptions) :
    Fixes o m (expandPathIfExists h o m) ((m.get o).map (expandedPath h)) := by
  unfold expandPathIfExists
  cases hv : m.get o with
  | none => exact fixes_of_get hv
  | some path =>
    simp only [map_some, expandedPath]
    split_ifs with hpath
    · exact fixes_eraseSet _
    · exact fixes_of_get hv

theorem expandNamed_spec (o : ConfigOption) (folder : String) (m : LayerOptions) :
    Fixes o m (expandNamed h o folder m) ((m.get o).map (namedPath h folder)) := by
  unfold expandNamed
  cases hv : m.get o with
  | none => exact fixes_of_get hv
  | some path =>
    simp only [map_some, namedPath]
    split_ifs with hpath hnamed
    · exact fixes_eraseSet _
    · exact fixes_eraseSet _
    · exact fixes_of_get hv

theorem fixOutputLog_spec (m : LayerOptions) : Fixes .OUTPUTLOG m (fixOutputLog h m) ((m.get .OUTPUTLOG).map fun v =>
    if v = "stdout" ∨ v = "stderr" then v else expandedPath h v) := by
  unfold fixOutputLog
  have hexpand := @expandPathIfExists_spec h .OUTPUTLOG m
  cases hv : m.get .OUTPUTLOG with
  | none =>
    rw [hv] at hexpand
    exact hexpand
  | some v =>
    rw [hv] at hexpand
    simp only [map_some, ne_eq, Option.some.injEq] at hexpand ⊢
    by_cases hstd : v = "stdout" ∨ v = "stderr"
    · rw [if_neg (by tauto), if_pos hstd]
      exact fixes_of_get hv
    · rw [if_pos (by tauto), if_neg hstd]
      exact hexpand

theorem fixSingleStep_spec (m : LayerOptions) : Fixes .MAXINST m (fixSingleStep m)
    (if (m.get .SINGLESTEP).isSome then some ((m.get .MAXINST).getD (toString 1)) else m.get .MAXINST) := by
  unfold fixSingleStep
  by_cases hstep : m.optionExists .SINGLESTEP = true
  · rw [if_pos hstep, if_pos (optionExists_iff.mp hstep)]
    refine ⟨fun o' hne => set_of_ne _ hne, ?_⟩
    rw [LayerOptions.get, set_self, LayerOptions.get]
    cases m .MAXINST <;> rfl
  · rw [if_neg hstep, if_neg fun h => hstep (optionExists_iff.mpr h)]
    exact fixes_of_get rfl

end FexEmu.Config
