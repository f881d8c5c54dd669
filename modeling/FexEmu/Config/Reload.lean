import FexEmu.Config.EnvironmentProofs
/-!
# Reloading the meta layer

After any reloads the options are those of the highest layers with their fix ups, under a condition on `MAXINST` and the two
environments.
-/
namespace FexEmu.Config
open Option (map_eq_some_iff none_or some_or bind_eq_some_iff bind_some)

variable {h : Host} {layers : LayerType → Option LayerOptions} {o : ConfigOption} {envp environ : List String}

/-! ## The environment layer -/

theorem setFromEnv_apply (m : LayerOptions) (o o' : ConfigOption) : setFromEnv h envp environ m o o' =
    if o' = o then (getVar h envp environ (envKey o)).elim (m o)
      (fun value => some ((m o).elim (.single value) fun v => v.emplaceBack value)) else m o' := by
  unfold setFromEnv
  cases getVar h envp environ (envKey o) with
  | none => by_cases ho : o' = o <;> simp [ho]
  | some value =>
    by_cases ho : o' = o
    · subst ho
      rw [if_pos rfl]
      exact set_self value
    · rw [if_neg ho]
      exact set_of_ne value ho

theorem envLoad_get (o : ConfigOption) : (envLoad h envp environ .empty).get o = getVar h envp environ (envKey o) := by
  rw [LayerOptions.get, envLoad, foldl_options (g := fun o v => (getVar h envp environ (envKey o)).elim v
    (fun value => some (v.elim (.single value) fun v => v.emplaceBack value))) setFromEnv_apply allOptions nodup_allOptions,
    if_pos (mem_allOptions o)]
  cases getVar h envp environ (envKey o) <;> rfl

theorem mem_of_find_envMap {id value : String} (hfind : find (envMap h envp) id = some value) :
    ∃ v, id ++ "=" ++ v ∈ envp ∧ '=' ∉ v.toList ∧ value = handleArgument h id v := by
  obtain he | he := mem_of_mem_foldl _ _ (mem_of_find hfind)
  · obtain ⟨var, hvar, hentry⟩ := List.mem_filterMap.mp he
    obtain ⟨⟨name, v⟩, hsplit, heq⟩ := map_eq_some_iff.mp hentry
    obtain ⟨rfl, rfl⟩ := Prod.mk.inj heq
    obtain ⟨hjoin, hv⟩ := splitLast_some hsplit
    exact ⟨v, hjoin ▸ hvar, hv, rfl⟩
  · cases he

theorem find_envMap_isSome {id v : String} (hmem : id ++ "=" ++ v ∈ envp) (hv : '=' ∉ v.toList) :
    ∃ value, find (envMap h envp) id = some value := by
  cases hfind : find (envMap h envp) id with
  | some value => exact ⟨value, rfl⟩
  | none =>
    rw [envMap, find_foldl_insertOrAssign, Option.or_eq_none_iff] at hfind
    have hentry : (id, handleArgument h id v) ∈ envp.filterMap (envEntry h) :=
      List.mem_filterMap.mpr ⟨_, hmem, by rw [envEntry, splitLast_join hv]; rfl⟩
    exact absurd rfl (find_eq_none.mp hfind.1 _ (List.mem_reverse.mpr hentry))

/-- The environment layer assigns the values of the environment exactly when the environment meets its condition. -/
theorem assigns_iff_environmentOk : Assigns h envp environ ↔ EnvironmentOk h envp environ := by
  unfold Assigns EnvironmentOk
  simp only [envLoad_get]
  constructor
  · intro hall o value hmem
    have hget := hall o value hmem
    have honly : ∀ value', envKey o ++ "=" ++ value' ∈ envp → value' = value := by
      intro value' hmem'
      exact Option.some.inj ((hall o value' hmem').symm.trans hget)
    refine ⟨honly, ?_⟩
    unfold getVar at hget
    cases hfind : find (envMap h envp) (envKey o) with
    | none =>
      rw [hfind, none_or] at hget
      split_ifs with heq
      · exact hget
      · obtain ⟨x, hx⟩ := find_envMap_isSome (h := h) hmem heq
        rw [hfind] at hx
        cases hx
    | some x =>
      obtain ⟨v, hv, hplain, rfl⟩ := mem_of_find_envMap hfind
      obtain rfl := honly v hv
      rw [hfind, some_or] at hget
      rw [if_neg hplain]
      exact Option.some.inj hget
  · intro hok o value hmem
    obtain ⟨honly, hvalue⟩ := hok o value hmem
    unfold getVar
    split_ifs at hvalue with heq
    · cases hfind : find (envMap h envp) (envKey o) with
      | none => rw [none_or, hvalue]
      | some x =>
        obtain ⟨v, hv, hplain, -⟩ := mem_of_find_envMap hfind
        exact absurd (honly v hv ▸ heq) hplain
    · obtain ⟨x, hx⟩ := find_envMap_isSome (h := h) hmem heq
      obtain ⟨v, hv, -, rfl⟩ := mem_of_find_envMap hx
      rw [hx, some_or, honly v hv, hvalue]

/-! ## The meta layer -/

theorem reload_steps {s s' : State} (hs : reloadMetaLayer h s = some s') : ∃ m1 m2 m3 m4 m5 m6 m7 m8,
    Fixes .THREADS (load h s.layers) m1 (some (fixedThreads h ((load h s.layers).get .THREADS))) ∧
    Fixes .CORE m1 m2 ((m1.get .CORE).map (fixedCore h)) ∧
    Fixes .CACHEOBJECTCODECOMPILATION m2 m3 ((m2.get .CACHEOBJECTCODECOMPILATION).filter fun v =>
      conv v = some 0 ∨ (m2.get .CORE).elim (some 1) conv ≠ some 0) ∧
    Fixes .ROOTFS m3 m4 ((m3.get .ROOTFS).map (namedPath h "RootFS/")) ∧
    Fixes .THUNKHOSTLIBS m4 m5 ((m4.get .THUNKHOSTLIBS).map (expandedPath h)) ∧
    Fixes .THUNKGUESTLIBS m5 m6 ((m5.get .THUNKGUESTLIBS).map (expandedPath h)) ∧
    Fixes .THUNKCONFIG m6 m7 ((m6.get .THUNKCONFIG).map (namedPath h "ThunkConfigs/")) ∧
    Fixes .OUTPUTLOG m7 m8 ((m7.get .OUTPUTLOG).map fun v => if v = "stdout" ∨ v = "stderr" then v else expandedPath h v) ∧
    Fixes .MAXINST m8 s'.options
      (if (m8.get .SINGLESTEP).isSome then some ((m8.get .MAXINST).getD (toString 1)) else m8.get .MAXINST) ∧
    (∀ v, m1.get .CORE = some v → ∃ n, conv v = some n) ∧ s'.layers = s.layers := by
  obtain ⟨m3, hm3, rfl⟩ := map_eq_some_iff.mp hs
  obtain ⟨m1, hm1, hm3⟩ := bind_eq_some_iff.mp hm3
  obtain ⟨m2, hm2, hm3⟩ := bind_eq_some_iff.mp hm3
  exact ⟨m1, m2, m3, _, _, _, _, _, fixThreads_spec hm1, fixCore_spec hm2, fixCache_spec hm3, expandNamed_spec _ _ _,
    expandPathIfExists_spec _ _, expandPathIfExists_spec _ _, expandNamed_spec _ _ _, fixOutputLog_spec _,
    fixSingleStep_spec _, fun _ hv => fixCore_conv hm2 hv, rfl⟩

/-- The meta layer before and after its fix ups. -/
structure FixedUp (h : Host) (m m' : LayerOptions) : Prop where
  frame : ∀ o, o ∉ fixedUp ∨ isEnv o → m' o = m o
  threads : m'.get .THREADS = some (fixedThreads h (m.get .THREADS))
  core : m'.get .CORE = (m.get .CORE).map (fixedCore h)
  core_conv : ∀ v, m.get .CORE = some v → ∃ n, conv v = some n
  cache : m'.get .CACHEOBJECTCODECOMPILATION = (m.get .CACHEOBJECTCODECOMPILATION).filter fun v =>
    conv v = some 0 ∨ (m'.get .CORE).elim (some 1) conv ≠ some 0
  rootFS : m'.get .ROOTFS = (m.get .ROOTFS).map (namedPath h "RootFS/")
  thunkHostLibs : m'.get .THUNKHOSTLIBS = (m.get .THUNKHOSTLIBS).map (expandedPath h)
  thunkGuestLibs : m'.get .THUNKGUESTLIBS = (m.get .THUNKGUESTLIBS).map (expandedPath h)
  thunkConfig : m'.get .THUNKCONFIG = (m.get .THUNKCONFIG).map (namedPath h "ThunkConfigs/")
  outputLog : m'.get .OUTPUTLOG = (m.get .OUTPUTLOG).map fun v => if v = "stdout" ∨ v = "stderr" then v else expandedPath h v
  maxInst : m'.get .MAXINST =
    if (m.get .SINGLESTEP).isSome then some ((m.get .MAXINST).getD (toString 1)) else m.get .MAXINST

theorem reload_fixedUp {s s' : State} (hs : reloadMetaLayer h s = some s') : FixedUp h (load h s.layers) s'.options := by
  obtain ⟨m1, m2, m3, m4, m5, m6, m7, m8, f1, f2, f3, f4, f5, f6, f7, f8, f9, hconv, -⟩ := reload_steps hs
  generalize load h s.layers = m0 at f1
  generalize s'.options = m9 at f9
  -- an option is as before the first fix up, until its own one, and then stays as it is
  have before : ∀ o, o ≠ .THREADS → o ≠ .CORE → o ≠ .CACHEOBJECTCODECOMPILATION → m3.get o = m0.get o := by
    intro o h1 h2 h3
    rw [f3.get h3, f2.get h2, f1.get h1]
  have after : ∀ o, o ≠ .ROOTFS → o ≠ .THUNKHOSTLIBS → o ≠ .THUNKGUESTLIBS → o ≠ .THUNKCONFIG → o ≠ .OUTPUTLOG →
      o ≠ .MAXINST → m9 o = m3 o := by
    intro o h4 h5 h6 h7 h8 h9
    rw [f9.frame o h9, f8.frame o h8, f7.frame o h7, f6.frame o h6, f5.frame o h5, f4.frame o h4]
  have hcore : m9.get .CORE = m2.get .CORE :=
    (get_congr (after .CORE (by decide) (by decide) (by decide) (by decide) (by decide) (by decide))).trans
      (f3.get (by decide))
  have hhost : m4.get .THUNKHOSTLIBS = m3.get .THUNKHOSTLIBS := f4.get (by decide)
  have hguest : m5.get .THUNKGUESTLIBS = m3.get .THUNKGUESTLIBS := (f5.get (by decide)).trans (f4.get (by decide))
  have hconfig : m6.get .THUNKCONFIG = m3.get .THUNKCONFIG := by
    rw [f6.get (by decide), f5.get (by decide), f4.get (by decide)]
  have hlog : m7.get .OUTPUTLOG = m3.get .OUTPUTLOG := by
    rw [f7.get (by decide), f6.get (by decide), f5.get (by decide), f4.get (by decide)]
  have hmax : ∀ o, o ≠ .ROOTFS → o ≠ .THUNKHOSTLIBS → o ≠ .THUNKGUESTLIBS → o ≠ .THUNKCONFIG → o ≠ .OUTPUTLOG →
      m8.get o = m3.get o := by
    intro o h4 h5 h6 h7 h8
    rw [f8.get h8, f7.get h7, f6.get h6, f5.get h5, f4.get h4]
  refine ⟨fun o ho => ?_, ?_, ?_, fun v hv => hconv v ?_, ?_, ?_, ?_, ?_, ?_, ?_, ?_⟩
  · have hne : ∀ o' ∈ fixedUp, ¬isEnv o' → o ≠ o' := by
      rintro o' ho' henv rfl
      exact ho.elim (fun h => h ho') henv
    rw [after o (hne _ (by decide) (by decide)) (hne _ (by decide) (by decide)) (hne _ (by decide) (by decide))
      (hne _ (by decide) (by decide)) (hne _ (by decide) (by decide)) (hne _ (by decide) (by decide)),
      f3.frame o (hne _ (by decide) (by decide)), f2.frame o (hne _ (by decide) (by decide)),
      f1.frame o (hne _ (by decide) (by decide))]
  · rw [get_congr (after .THREADS (by decide) (by decide) (by decide) (by decide) (by decide) (by decide)),
      f3.get (by decide), f2.get (by decide), f1.result]
  · rw [hcore, f2.result, f1.get (by decide)]
  · rw [f1.get (by decide), hv]
  · have hcache : m2.get .CACHEOBJECTCODECOMPILATION = m0.get .CACHEOBJECTCODECOMPILATION :=
      (f2.get (by decide)).trans (f1.get (by decide))
    rw [hcore, get_congr (after .CACHEOBJECTCODECOMPILATION (by decide) (by decide) (by decide) (by decide) (by decide)
      (by decide)), f3.result, hcache]
  · rw [f9.get (by decide), f8.get (by decide), f7.get (by decide), f6.get (by decide), f5.get (by decide), f4.result,
      before .ROOTFS (by decide) (by decide) (by decide)]
  · rw [f9.get (by decide), f8.get (by decide), f7.get (by decide), f6.get (by decide), f5.result, hhost,
      before .THUNKHOSTLIBS (by decide) (by decide) (by decide)]
  · rw [f9.get (by decide), f8.get (by decide), f7.get (by decide), f6.result, hguest,
      before .THUNKGUESTLIBS (by decide) (by decide) (by decide)]
  · rw [f9.get (by decide), f8.get (by decide), f7.result, hconfig,
      before .THUNKCONFIG (by decide) (by decide) (by decide)]
  · rw [f9.get (by decide), f8.result, hlog, before .OUTPUTLOG (by decide) (by decide) (by decide)]
  · rw [f9.result, hmax .SINGLESTEP (by decide) (by decide) (by decide) (by decide) (by decide),
      hmax .MAXINST (by decide) (by decide) (by decide) (by decide) (by decide),
      before .SINGLESTEP (by decide) (by decide) (by decide), before .MAXINST (by decide) (by decide) (by decide)]

theorem load_env (ho : isEnv o) : (load h layers) o = merged h (settings layers o) := by
  rw [load_apply, merged]
  simp [mergeValue, if_pos ho]

theorem merged_iff {s s' : State} (hs : reloadMetaLayer h s = some s') : Merged h s.layers s'.options ↔
    SingleStepOk s.layers ∧ NamesOnce s.layers .ENV ∧ NamesOnce s.layers .HOSTENV := by
  have hf := reload_fixedUp hs
  have hload : ∀ o, ¬isEnv o → (load h s.layers).get o = highest s.layers o := fun o ho => load_of_not_env ho
  have henv : OneEach s.layers s'.options .ENV ↔ NamesOnce s.layers .ENV :=
    oneEach_iff ((hf.frame .ENV (.inr (by decide))).trans (load_env (by decide)))
  have hhostEnv : OneEach s.layers s'.options .HOSTENV ↔ NamesOnce s.layers .HOSTENV :=
    oneEach_iff ((hf.frame .HOSTENV (.inr (by decide))).trans (load_env (by decide)))
  have hmax := hf.maxInst
  rw [hload _ (by decide), hload _ (by decide)] at hmax
  have hone : stoi (toString 1) = some 1 := stoi_toString one_pos (by norm_num)
  have hsingle : (if (highest s.layers .SINGLESTEP).isSome then ∃ v, s'.options.get .MAXINST = some v ∧ stoi v = some 1
      else s'.options.get .MAXINST = highest s.layers .MAXINST) ↔ SingleStepOk s.layers := by
    unfold SingleStepOk
    rw [hmax]
    by_cases hstep : (highest s.layers .SINGLESTEP).isSome = true
    · rw [if_pos hstep, if_pos hstep]
      cases highest s.layers .MAXINST with
      | none => exact iff_of_true ⟨_, rfl, hone⟩ (by simp)
      | some v => simp [hstep]
    · rw [if_neg hstep, if_neg hstep]
      exact iff_of_true rfl fun h => absurd h hstep
  rw [← hsingle, ← henv, ← hhostEnv]
  refine ⟨fun hm => ⟨hm.maxInst, hm.env, hm.hostEnv⟩, fun ⟨hmaxInst, henv, hhostEnv⟩ => ?_⟩
  refine ⟨fun o ho => ?_, ?_, fun v hv => ?_, ?_, fun v hv => ?_, ?_, ?_, ?_, ?_, ?_, ?_, hmaxInst, henv, hhostEnv⟩
  · rw [get_congr (hf.frame o (.inl ho)), hload o]
    rintro (rfl | rfl)
    · exact ho (by decide)
    · exact ho (by decide)
  · rw [hf.threads, hload _ (by decide)]
  · rw [hf.threads] at hv
    cases hv
    exact fixedThreads_pos
  · rw [hf.core, hload _ (by decide)]
  · rw [hf.core] at hv
    obtain ⟨v', hv', rfl⟩ := map_eq_some_iff.mp hv
    exact fixedCore_range (hf.core_conv v' hv')
  · rw [hf.cache, hload .CACHEOBJECTCODECOMPILATION (by decide)]
  · rw [hf.rootFS, hload _ (by decide)]
  · rw [hf.thunkHostLibs, hload _ (by decide)]
  · rw [hf.thunkGuestLibs, hload _ (by decide)]
  · rw [hf.thunkConfig, hload _ (by decide)]
  · rw [hf.outputLog, hload _ (by decide)]

/-! ## All runs -/

theorem layers_addLayer (s : State) (type type' : LayerType) (options : LayerOptions) :
    (s.addLayer type' options).layers type =
      (s.layers type).or (if type = .LAYER_TOP then none else Call.adds type (.addLayer type' options)) := by
  unfold State.addLayer
  by_cases hskip : type' = .LAYER_TOP ∨ (s.layers type').isSome = true
  · rw [if_pos hskip]
    cases hl : s.layers type with
    | some v => rfl
    | none =>
      simp only [none_or, Call.adds]
      split_ifs with h0 heq
      · rfl
      · subst heq
        rw [hl] at hskip
        simp [h0] at hskip
      · rfl
  · rw [if_neg hskip]
    rw [not_or] at hskip
    by_cases heq : type' = type
    · subst heq
      rw [Option.not_isSome_iff_eq_none.mp hskip.2]
      simp [Call.adds, hskip.1]
    · simp [Call.adds, heq, Function.update_of_ne (Ne.symm heq)]

theorem layers_step {s s' : State} (call : Call) (hs : call.run h s = some s') (type : LayerType) :
    s'.layers type = (s.layers type).or (if type = .LAYER_TOP then none else call.adds type) := by
  cases call with
  | addLayer type' options =>
    cases hs
    exact layers_addLayer s type type' options
  | reloadMetaLayer =>
    obtain ⟨m, -, rfl⟩ := map_eq_some_iff.mp hs
    simp [Call.adds]

theorem layers_run (calls : List Call) : ∀ {s s' : State}, calls.foldlM (Call.run h) s = some s' →
    s.layers .LAYER_TOP = none → ∀ type, s'.layers type = (s.layers type).or (added calls type) := by
  induction calls with
  | nil =>
    intro s s' hs _ type
    cases hs
    simp [added]
  | cons call calls ih =>
    intro s s' hs htop type
    obtain ⟨t, ht, hs⟩ := bind_eq_some_iff.mp hs
    have hstep := layers_step call ht
    have htop' : t.layers .LAYER_TOP = none := by
      rw [hstep .LAYER_TOP, htop]
      rfl
    rw [ih hs htop' type, hstep type, added, added, List.findSome?_cons]
    by_cases h0 : type = .LAYER_TOP
    · simp [h0]
    · simp only [h0, if_false]
      cases s.layers type <;> cases call.adds type <;> simp

/-- Every reload of every run, and every environment. -/
theorem config_iff (h : Host) :
    (∀ calls s s', run h calls = some s → reloadMetaLayer h s = some s' → (Merged h (added calls) s'.options ↔
      SingleStepOk (added calls) ∧ NamesOnce (added calls) .ENV ∧ NamesOnce (added calls) .HOSTENV)) ∧
    ∀ envp environ, Assigns h envp environ ↔ EnvironmentOk h envp environ := by
  refine ⟨fun calls s s' hrun hreload => ?_, fun _ _ => assigns_iff_environmentOk⟩
  have hlayers : s.layers = added calls := by
    funext type
    rw [layers_run calls hrun rfl type]
    rfl
  exact hlayers ▸ merged_iff hreload

/-! ## Two configurations -/

/-- A host without any files. -/
def plainHost : Host where
  isX86 := false
  interpreterEnabled := true
  nprocs := 8
  nprocs_pos := by decide
  nprocs_lt := by decide
  pathExists _ := false
  absolute path := path
  home := "/root"
  containerPrefix := ""
  dataDirectory := "/root/.fex-emu/"
  iterate l := l
  iterate_perm l := .refl l

/-- The options of a layer that sets one of them, or two. -/
def setting (o : ConfigOption) (v : String) : LayerOptions := LayerOptions.empty.set o v

/-- Two layers with an environment each. -/
def twoEnvironments : List Call :=
  [.addLayer .LAYER_ENVIRONMENT (setting .ENV "A=1"), .addLayer .LAYER_MAIN ((setting .ENV "A=2").set .ENV "B=x=y")]

theorem config_merges_two : ∃ s s', run plainHost twoEnvironments = some s ∧ reloadMetaLayer plainHost s = some s' ∧
    (Merged plainHost (added twoEnvironments) s'.options ↔ SingleStepOk (added twoEnvironments) ∧
      NamesOnce (added twoEnvironments) .ENV ∧ NamesOnce (added twoEnvironments) .HOSTENV) := by
  obtain ⟨s, hs⟩ : ∃ s, run plainHost twoEnvironments = some s := ⟨_, rfl⟩
  have hreload : ((run plainHost twoEnvironments).bind fun s => reloadMetaLayer plainHost s).isSome = true := by
    decide
  rw [hs, bind_some] at hreload
  obtain ⟨s', hs'⟩ := Option.isSome_iff_exists.mp hreload
  exact ⟨s, s', hs, hs', (config_iff plainHost).1 twoEnvironments s s' hs hs'⟩

/-- A layer with `SINGLESTEP` and a `MAXINST` of its own. -/
def singleStep : List Call := [.addLayer .LAYER_MAIN ((setting .SINGLESTEP "1").set .MAXINST "500")]

/-- A layer that defines a name twice. -/
def doubleName : List Call := [.addLayer .LAYER_MAIN ((setting .ENV "A=1").set .ENV "A=2")]

/-- `MAXINST` stays 500 beside `SINGLESTEP`, and both definitions of a name stay. -/
theorem config_not_merged :
    (∃ s s', run plainHost singleStep = some s ∧ reloadMetaLayer plainHost s = some s' ∧
      ¬Merged plainHost (added singleStep) s'.options) ∧
    ∃ s s', run plainHost doubleName = some s ∧ reloadMetaLayer plainHost s = some s' ∧
      ¬Merged plainHost (added doubleName) s'.options := by
  constructor
  · obtain ⟨s, hs⟩ : ∃ s, run plainHost singleStep = some s := ⟨_, rfl⟩
    have hfacts : ((run plainHost singleStep).bind fun s => reloadMetaLayer plainHost s).map
        (fun s' => (s'.options.get .MAXINST, (highest (added singleStep) .SINGLESTEP).isSome)) =
        some (some "500", true) := by
      decide
    rw [hs, bind_some] at hfacts
    obtain ⟨s', hs', heq⟩ := map_eq_some_iff.mp hfacts
    obtain ⟨hmax, hstep⟩ := Prod.mk.inj heq
    refine ⟨s, s', hs, hs', fun hm => ?_⟩
    have hone := hm.maxInst
    rw [if_pos hstep, hmax] at hone
    obtain ⟨v, hv, hstoi⟩ := hone
    cases hv
    exact absurd hstoi (by decide)
  · obtain ⟨s, hs⟩ : ∃ s, run plainHost doubleName = some s := ⟨_, rfl⟩
    have hfacts : ((run plainHost doubleName).bind fun s => reloadMetaLayer plainHost s).map
        (fun s' => (definitions ((s'.options .ENV).elim [] LayerValue.toList)).filter fun e => e.1 = "A") =
        some [("A", "1"), ("A", "2")] := by
      decide
    rw [hs, bind_some] at hfacts
    obtain ⟨s', hs', heq⟩ := map_eq_some_iff.mp hfacts
    refine ⟨s, s', hs, hs', fun hm => ?_⟩
    have hone := hm.env "A"
    rw [heq] at hone
    exact absurd hone (by decide)

end FexEmu.Config
