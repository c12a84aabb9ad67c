import ReleaseFlags.Proofs.Registry.Scanned
import ReleaseFlags.Proofs.Resolution.Memo

/-!
# Sessions

A session changes the cache of a registry, and its answers may depend on the cache.  Here is
what the answers are in terms of resolving anew: `generate` gives `resolution`, and
`generateAll` gives `combined`, in every registry that is coherent (`answers_generate`,
`answers_generateAll`).
-/

namespace ReleaseFlags

namespace Registry

variable {registry : Registry} {config : ReleaseConfig} {resolved : Resolved}
  {cache : Cache} {name : String} {α β : Type}

/-! ### The cache of a registry -/

/-- The registry with another cache. -/
def withCache (registry : Registry) (cache : Cache) : Registry :=
  { registry with resolved := cache }

/-- The registry before anything was resolved. -/
def forget (registry : Registry) : Registry := registry.withCache NameMap.empty

/-- Compiling a config looks at no cache but the one of the walk. -/
lemma plan_withCache (registry : Registry) (cache : Cache) :
    (registry.withCache cache).plan = registry.plan := rfl

lemma resolveAnew_withCache (registry : Registry) (cache : Cache) :
    (registry.withCache cache).resolveAnew = registry.resolveAnew := by
  funext depth
  induction depth with
  | zero =>
    funext active config
    rw [resolveAnew_zero, resolveAnew_zero]
  | succ depth ih =>
    funext active config
    by_cases hmem : config.name ∈ active
    · rw [resolveAnew_of_mem _ hmem, resolveAnew_of_mem _ hmem]
    · rw [resolveAnew_succ depth hmem, resolveAnew_succ depth hmem, ih, plan_withCache]

lemma anew_withCache (registry : Registry) (cache : Cache) :
    (registry.withCache cache).anew = registry.anew := by
  unfold anew
  rw [resolveAnew_withCache]
  rfl

lemma sound_withCache (registry : Registry) (cache : Cache) :
    (registry.withCache cache).Sound = registry.Sound := by
  have hresolves : (registry.withCache cache).Resolves = registry.Resolves := by
    unfold Resolves
    rw [resolveAnew_withCache]
  unfold Sound
  rw [hresolves]
  rfl

lemma resolve_withCache (registry : Registry) (cache : Cache) (depth : Nat) :
    (registry.withCache cache).resolve depth = registry.resolve depth := by
  induction depth with
  | zero =>
    funext active config
    rw [resolve, resolve]
  | succ depth ih =>
    funext active config
    rw [resolve, resolve, ih]
    rfl

lemma resolveIn_withCache (registry : Registry) (cache : Cache) :
    (registry.withCache cache).resolveIn = registry.resolveIn := by
  funext config
  unfold resolveIn
  rw [resolve_withCache]
  rfl

/-- What holds between any two calls: configs are stored under their own names, no alias hides
one, and the cache holds resolutions only. -/
structure Coherent (registry : Registry) : Prop where
  named : registry.Named
  unshadowed : ∀ name config, registry.configs.get? name = some config →
    registry.aliases.get? name = none
  sound : registry.Sound registry.resolved

lemma Coherent.withCache (h : registry.Coherent) (hcache : registry.Sound cache) :
    (registry.withCache cache).Coherent :=
  ⟨h.named, h.unshadowed, (sound_withCache registry cache).symm ▸ hcache⟩

lemma Coherent.forget (h : registry.Coherent) : registry.forget.Coherent :=
  h.withCache sound_empty

lemma Coherent.setOptions (h : registry.Coherent) (options : Options) :
    (registry.setOptions options).Coherent :=
  ⟨h.named, h.unshadowed, sound_empty⟩

/-- What was read from config directories is coherent, whether or not the fallback may stand
in for missing configs. -/
lemma Scanned.coherent (h : registry.Scanned) (allowMissing : Bool) :
    { registry with allowMissing }.Coherent where
  named := h.configs_named
  unshadowed := h.unshadowed
  sound := by
    have hempty := h.nothing_resolved
    simp only [hempty]
    exact sound_empty

/-- A config is found by its own name. -/
lemma Coherent.lookup_self (h : registry.Coherent) (hc : registry.Has config)
    (allowMissing : Bool) : registry.lookup config.name allowMissing = .ok config := by
  have halias := h.unshadowed _ _ hc
  have hget : registry.configs.get? config.name = some config := hc
  simp only [lookup, aliasChain, followAliases, halias, hget]

lemma Coherent.configStrict_self (h : registry.Coherent) (hc : registry.Has config) :
    registry.configStrict config.name = .ok config :=
  h.lookup_self hc false

/-! ### Answers -/

/-- With any sound cache, the session answers with the given outcome; it changes nothing but
the cache, which stays sound and keeps its entries. -/
def Answers (registry : Registry) (session : Session α) (outcome : Except Error α) : Prop :=
  ∀ cache, registry.Sound cache → ∃ cache',
    session.run (registry.withCache cache) = (outcome, registry.withCache cache') ∧
      registry.Sound cache' ∧ Keeps cache cache'

/-- What is remembered between any two calls is sound, so the session gives its answer. -/
lemma Answers.fst_run {session : Session α} {outcome : Except Error α}
    (hanswers : registry.Answers session outcome) (h : registry.Coherent) :
    (session.run registry).1 = outcome := by
  obtain ⟨_, hrun, -⟩ := hanswers _ h.sound
  exact congrArg Prod.fst hrun

lemma answers_pure (a : α) : registry.Answers (pure a) (pure a) :=
  fun cache hcache => ⟨cache, rfl, hcache, .refl cache⟩

lemma answers_bind {session : Session α} {next : α → Session β} {outcome : Except Error α}
    {after : α → Except Error β} (h : registry.Answers session outcome)
    (hnext : ∀ a, outcome = .ok a → registry.Answers (next a) (after a)) :
    registry.Answers (session >>= next) (outcome >>= after) := by
  intro cache hcache
  obtain ⟨cache₁, hrun, hsound, hkeeps⟩ := h cache hcache
  cases outcome with
  | error e => exact ⟨cache₁, run_bind_of_error hrun, hsound, hkeeps⟩
  | ok a =>
    obtain ⟨cache₂, hrun₂, hsound₂, hkeeps₂⟩ := hnext a rfl cache₁ hsound
    exact ⟨cache₂, (run_bind_of_ok hrun).trans hrun₂, hsound₂, hkeeps.trans hkeeps₂⟩

/-- A session may go on with what does not depend on the cache. -/
lemma answers_get_bind {next : Registry → Session β} {outcome : Except Error β}
    (h : ∀ cache, registry.Answers (next (registry.withCache cache)) outcome) :
    registry.Answers (get >>= next) outcome := by
  intro cache hcache
  obtain ⟨cache', hrun, hsound⟩ := h cache cache hcache
  exact ⟨cache', (run_get_bind _).trans hrun, hsound⟩

lemma answers_mapM {session : α → Session β} {outcome : α → Except Error β}
    (h : ∀ a, registry.Answers (session a) (outcome a)) (items : List α) :
    registry.Answers (items.mapM session) (items.mapM outcome) := by
  induction items with
  | nil => exact answers_pure []
  | cons a rest ih =>
    rw [List.mapM_cons, List.mapM_cons]
    exact answers_bind (h a) fun b _ => answers_bind ih fun bs _ => answers_pure (b :: bs)

lemma answers_forM {session : α → Session PUnit} {outcome : α → Except Error PUnit}
    (h : ∀ a, registry.Answers (session a) (outcome a)) (items : List α) :
    registry.Answers (items.forM session) (items.forM outcome) := by
  induction items with
  | nil => exact answers_pure _
  | cons a rest ih => exact answers_bind (h a) fun _ _ => ih

/-! ### Resolving one config -/

/-- What resolving the config of a name or alias gives, when nothing is remembered. -/
def resolution (registry : Registry) (name : String) : Except Error Resolved := do
  registry.anew (← registry.configStrict name)

lemma resolution_withCache (registry : Registry) (cache : Cache) :
    (registry.withCache cache).resolution = registry.resolution := by
  unfold resolution
  rw [anew_withCache]
  rfl

/-- What resolving a config gives in a registry, with what it remembers. -/
def outcomeOf (registry : Registry) (config : ReleaseConfig) : Except Error Resolved :=
  ((registry.resolveIn config).run registry.resolved).1

lemma Coherent.outcomeOf_eq (h : registry.Coherent) (hc : registry.Has config) :
    registry.outcomeOf config = registry.anew config := by
  obtain ⟨cache', hrun, -⟩ := resolveIn_agrees h.named hc _ h.sound
  rw [outcomeOf, hrun]

lemma generate_run (registry : Registry) (name : String) :
    (generate name).run registry = match registry.configStrict name with
      | .error e => (.error e, registry)
      | .ok config => (registry.outcomeOf config,
          registry.withCache ((registry.resolveIn config).run registry.resolved).2) := by
  have hget : (get : Session Registry).run registry = (.ok registry, registry) := rfl
  rw [generate, run_bind_of_ok hget]
  cases registry.configStrict name with
  | error e => rfl
  | ok config =>
    rw [run_bind_of_ok (rfl : (liftExcept (.ok config) : Session ReleaseConfig).run registry =
      (.ok config, registry))]
    simp only [outcomeOf]
    rcases (registry.resolveIn config).run registry.resolved with ⟨_ | _, cache'⟩ <;> rfl

/-- In a coherent registry `generate` gives what resolving anew gives. -/
theorem answers_generate (h : registry.Coherent) (name : String) :
    registry.Answers (generate name) (registry.resolution name) := by
  intro cache hcache
  have hstrict : (registry.withCache cache).configStrict name = registry.configStrict name := rfl
  rw [generate_run, hstrict]
  simp only [resolution]
  cases hname : registry.configStrict name with
  | error e => exact ⟨cache, rfl, hcache, .refl cache⟩
  | ok config =>
    have hc : registry.Has config := has_of_lookup h.named hname
    obtain ⟨cache', hrun, hsound, hkeeps⟩ := resolveIn_agrees h.named hc cache hcache
    refine ⟨cache', ?_, hsound, hkeeps⟩
    simp only [outcomeOf, resolveIn_withCache]
    have hcached : (registry.withCache cache).resolved = cache := rfl
    rw [hcached, hrun]
    rfl

lemma Coherent.generate_eq (h : registry.Coherent) (name : String) :
    ((generate name).run registry).1 = registry.resolution name :=
  (answers_generate h name).fst_run h

/-- What is remembered of a config is found by every name of it. -/
lemma resolvedStrict_eq_ok : registry.resolvedStrict name = .ok resolved ↔
    ∃ config, registry.configStrict name = .ok config ∧
      registry.resolved.get? config.name = some resolved := by
  simp only [resolvedStrict]
  rw [bind_eq_ok]
  refine exists_congr fun config => and_congr_right fun _ => ?_
  cases registry.resolved.get? config.name with
  | none =>
    constructor
    · rintro ⟨⟩
    · rintro ⟨⟩
  | some found =>
    constructor
    · rintro ⟨⟩
      rfl
    · rintro ⟨⟩
      rfl

/-- After a config was resolved, every name of it leads to the result. -/
lemma resolvedStrict_of_generate {after : Registry}
    (hrun : (generate name).run registry = (.ok resolved, after)) :
    after.resolvedStrict name = .ok resolved := by
  rw [generate_run] at hrun
  cases hname : registry.configStrict name with
  | error e =>
    rw [hname] at hrun
    cases (Prod.mk.inj hrun).1
  | ok config =>
    rw [hname] at hrun
    obtain ⟨hout, rfl⟩ := Prod.mk.inj hrun
    exact resolvedStrict_eq_ok.mpr ⟨config, hname, get?_of_resolve_run (Prod.ext hout rfl)⟩

/-- Entries that are kept are found again. -/
lemma resolvedStrict_of_keeps {cache' : Cache} (hkeeps : Keeps cache cache')
    (h : (registry.withCache cache).resolvedStrict name = .ok resolved) :
    (registry.withCache cache').resolvedStrict name = .ok resolved := by
  obtain ⟨config, hname, hget⟩ := resolvedStrict_eq_ok.mp h
  exact resolvedStrict_eq_ok.mpr ⟨config, hname, hkeeps _ _ hget⟩

/-! ### Resolving all configs -/

/-- What reporting on all configs gives, when nothing is remembered. -/
def combined (registry : Registry) (target : String) : Except Error CombinedReport := do
  registry.configs.names.forM fun name => do
    let _ ← registry.resolution name
  let target := (← registry.config target).name
  let first ← registry.resolution target
  let others ← (registry.configs.names.filter (· ≠ target)).mapM registry.resolution
  return {
    target := first.report
    others := others.map Resolved.report
    maps := NameMap.ofList (registry.maps.map fun loaded => (loaded.directory, loaded.map)) }

lemma answers_generateEach (h : registry.Coherent) (names : List String) :
    registry.Answers (names.forM fun name => do let _ ← generate name)
      (names.forM fun name => do let _ ← registry.resolution name) :=
  answers_forM (fun name => answers_bind (answers_generate h name) fun _ _ => answers_pure _) names

/-- If configs are resolved one after the other and none fails, all of them are remembered. -/
lemma exists_resolvedStrict_of_forM (h : registry.Coherent) {names : List String}
    {after : Registry}
    (hrun : (names.forM fun name => do let _ ← generate name : Session PUnit).run registry =
      (.ok (), after)) (hname : name ∈ names) :
    ∃ resolved, after.resolvedStrict name = .ok resolved := by
  induction names generalizing registry with
  | nil => cases hname
  | cons first rest ih =>
    obtain ⟨_, between, hfirst, hrest⟩ := exists_of_run_bind_eq_ok hrun
    obtain ⟨resolved, _, hgenerate, hdone⟩ := exists_of_run_bind_eq_ok hfirst
    cases hdone
    obtain ⟨cache, hanswer, hsound, -⟩ := answers_generate h first _ h.sound
    obtain rfl : registry.withCache cache = between :=
      (congrArg Prod.snd hanswer).symm.trans (congrArg Prod.snd hgenerate)
    rcases List.mem_cons.mp hname with rfl | hname
    · -- the rest changes no entry
      obtain ⟨cache', hrest', -, hkeeps⟩ := answers_generateEach h rest cache hsound
      obtain rfl : registry.withCache cache' = after :=
        (congrArg Prod.snd hrest').symm.trans (congrArg Prod.snd hrest)
      exact ⟨resolved, resolvedStrict_of_keeps hkeeps (resolvedStrict_of_generate hgenerate)⟩
    · exact ih (h.withCache hsound) hrest hname

/-- What a coherent registry remembers is what resolving anew gives. -/
lemma Coherent.resolution_eq (h : registry.Coherent)
    (hr : registry.resolvedStrict name = .ok resolved) :
    registry.resolution name = .ok resolved := by
  obtain ⟨config, hname, hget⟩ := resolvedStrict_eq_ok.mp hr
  have hc : registry.Has config := has_of_lookup h.named hname
  exact bind_eq_ok.mpr ⟨config, hname, (resolves_iff h.named hc).mp (h.sound.resolves hc hget)⟩

/-- Once all of them are resolved, what is remembered of configs is what resolving them anew
gives. -/
lemma resolvedStrict_of_forM (h : registry.Coherent) {names : List String} {cache' : Cache}
    (hcache : registry.Sound cache) (hsound : registry.Sound cache')
    (hrun : (names.forM fun name => do let _ ← generate name : Session PUnit).run
      (registry.withCache cache) = (.ok (), registry.withCache cache')) (hname : name ∈ names) :
    (registry.withCache cache').resolvedStrict name = registry.resolution name := by
  obtain ⟨resolved, hr⟩ := exists_resolvedStrict_of_forM (h.withCache hcache) hrun hname
  have hanew := (h.withCache hsound).resolution_eq hr
  rw [resolution_withCache] at hanew
  rw [hr, hanew]

/-- In a coherent registry `generateAll` gives what reporting on all configs anew gives. -/
theorem answers_generateAll (h : registry.Coherent) (target : String) :
    registry.Answers (generateAll target) (registry.combined target) := by
  refine answers_get_bind fun before cache hcache => ?_
  obtain ⟨cache₁, hrun, hsound, hkeeps⟩ :=
    answers_generateEach h registry.configs.names cache hcache
  simp only [combined]
  cases heach : (registry.configs.names.forM fun name => do
      let _ ← registry.resolution name : Except Error PUnit) with
  | error e =>
    rw [heach] at hrun
    exact ⟨cache₁, run_bind_of_error hrun, hsound, hkeeps⟩
  | ok done =>
    rw [heach] at hrun
    -- from here on the cache holds every config, and nothing changes it
    have hstrict (name : String) (hname : name ∈ registry.configs.names) :=
      resolvedStrict_of_forM h hcache hsound hrun hname
    refine ⟨cache₁, (run_bind_of_ok hrun).trans ?_, hsound, hkeeps⟩
    have hget : (get : Session Registry).run (registry.withCache cache₁) =
        (.ok (registry.withCache cache₁), registry.withCache cache₁) := rfl
    refine (run_bind_of_ok hget).trans ?_
    have hconfig : (registry.withCache cache₁).config target = registry.config target := rfl
    rw [run_liftExcept_bind, hconfig]
    cases hfound : registry.config target with
    | error e => rfl
    | ok config =>
      simp only [run_liftExcept_bind]
      rw [hstrict config.name (has_of_lookup h.named hfound).mem_names]
      cases hresolved : registry.resolution config.name with
      | error e => simp only [bind, Except.bind, hresolved]
      | ok resolved =>
        have hothers : ((registry.withCache before).configs.names.filter
            (· ≠ config.name)).mapM (registry.withCache cache₁).resolvedStrict =
              (registry.configs.names.filter (· ≠ config.name)).mapM registry.resolution :=
          mapM_congr_of_mem fun name hname => hstrict name (List.mem_filter.mp hname).1
        simp only [bind, Except.bind, hresolved, hothers]
        cases (registry.configs.names.filter (· ≠ config.name)).mapM registry.resolution <;> rfl

end Registry

end ReleaseFlags
