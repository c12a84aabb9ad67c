import ReleaseFlags.Proofs.Resolution.Merges

/-!
# What a walk leaves in the cache

A cache answers for a config if what it remembers of the merged configs is enough to compile the
config again.  A walk that begins with a cache that answers for all its configs (`Closed`) leaves
such a cache behind, also where it fails, and if it succeeds it has added nothing but configs that
its config merges, directly or through others (`Spreads`).  Hence a call that succeeds adds exactly
these, and a call that fails adds only configs that resolve (`cache_of_generate`).
-/

namespace ReleaseFlags

namespace Registry

open Relation

variable {registry : Registry} {config other : ReleaseConfig} {resolved : Resolved}
  {cache cache' : Cache} {f g : ReleaseConfig → Except Error Resolved} {depth : Nat}
  {active : List String} {α : Type}

/-! ### What a compilation asks for -/

/-- A config is compiled alike by any function that repeats what was said of the merged configs. -/
lemma Stages.compile_eq_ok (s : registry.Stages f config resolved)
    (hg : ∀ e ∈ s.inherited, g e.1 = .ok e.2) : registry.compile g config = .ok resolved := by
  have hparents : (registry.parentNames config).mapM (registry.findParent g config) =
      .ok s.parents := by
    have hfound : ∀ name ∈ registry.parentNames config, ∀ e,
        registry.findParent f config name = .ok e →
          registry.findParent g config name = .ok (id e) := by
      intro name hname e he
      obtain ⟨e', he', hfound⟩ := exists_mem_of_mapM s.parents_eq hname
      obtain rfl : e = e' := Except.ok.inj (he.symm.trans hfound)
      exact findParent_eq_ok.mpr ⟨(findParent_eq_ok.mp he).1, hg e (List.mem_append_left _ he')⟩
    rw [mapM_map_eq_ok s.parents_eq hfound, List.map_id]
  have hmerged := inheritParents_eq_ok.mpr ⟨s.parents, hparents, s.merged_eq⟩
  have hvariant : registry.inheritVariant g config s.own = .ok s.final := by
    have happlied := s.applied_eq
    have hfinal := s.final_eq
    cases he : s.applied with
    | none =>
      rw [he] at happlied hfinal
      exact bind_eq_ok.mpr ⟨none, happlied, hfinal⟩
    | some e =>
      rw [he] at happlied hfinal
      obtain ⟨final, hfinal, hdone⟩ := bind_eq_ok.mp hfinal
      cases hdone
      have hmem : e ∈ s.inherited := List.mem_append_right _ (Option.mem_toList.mpr he)
      exact bind_eq_ok.mpr ⟨some e.1, happlied, bind_eq_ok.mpr ⟨e.2, hg e hmem, hfinal⟩⟩
  exact bind_eq_ok.mpr ⟨s.merged, hmerged, bind_eq_ok.mpr ⟨s.own, s.own_eq,
    bind_eq_ok.mpr ⟨s.final, hvariant, s.resolved_eq⟩⟩⟩

/-- A compilation that succeeds asks for nothing but the merged configs. -/
lemma Stages.exists_mem_of_asks (s : registry.Stages f config resolved)
    (h : (registry.plan config).Asks f other) : ∃ inherited, (other, inherited) ∈ s.inherited := by
  classical
  -- a function that knows the merged configs only is enough
  let g (config : ReleaseConfig) : Except Error Resolved :=
    if ∃ inherited, (config, inherited) ∈ s.inherited then f config
    else .error (.notResolved config.name)
  have hcompile : registry.compile g config = .ok resolved := s.compile_eq_ok fun e he => by
    have hmerged : ∃ inherited, (e.1, inherited) ∈ s.inherited := ⟨e.2, he⟩
    simp only [g, if_pos hmerged, s.ok_of_mem he]
  rw [compile_eq_run] at hcompile
  obtain ⟨r, hr⟩ := h.ok_of_run_ok hcompile fun config r r' hf hg => by
    simp only [g] at hg
    split at hg
    · exact Except.ok.inj (hf.symm.trans hg)
    · cases hg
  by_cases hmerged : ∃ inherited, (other, inherited) ∈ s.inherited
  · exact hmerged
  · simp only [g, if_neg hmerged] at hr
    cases hr

/-! ### Caches that answer for their configs -/

/-- What is remembered of a config. -/
def remembered (cache : Cache) (config : ReleaseConfig) : Except Error Resolved :=
  match cache.get? config.name with
  | some resolved => .ok resolved
  | none => .error (.notResolved config.name)

lemma remembered_eq_ok : remembered cache config = .ok resolved ↔
    cache.get? config.name = some resolved := by
  simp only [remembered]
  cases cache.get? config.name with
  | none => simp
  | some found => simp

/-- The cache answers for all its configs. -/
def Closed (registry : Registry) (cache : Cache) : Prop :=
  ∀ config resolved, registry.Has config → cache.get? config.name = some resolved →
    registry.compile (remembered cache) config = .ok resolved

lemma closed_empty : registry.Closed NameMap.empty := by
  intro config resolved _ hget
  rw [NameMap.get?_empty] at hget
  cases hget

/-- A cache that remembers more gives the same answers. -/
lemma compile_of_keeps (hkeeps : Keeps cache cache')
    (h : registry.compile (remembered cache) config = .ok resolved) :
    registry.compile (remembered cache') config = .ok resolved := by
  rw [compile_eq_run] at h ⊢
  refine Plan.run_ok_of_asks h fun other r _ hr => ?_
  exact remembered_eq_ok.mpr (hkeeps _ _ (remembered_eq_ok.mp hr))

lemma Closed.insert (h : registry.Closed cache) (hc : registry.Has config)
    (hkeeps : Keeps cache (cache.insert config.name resolved))
    (hcompile : registry.compile (remembered cache) config = .ok resolved) :
    registry.Closed (cache.insert config.name resolved) := by
  intro other r hother hget
  refine compile_of_keeps hkeeps ?_
  rw [NameMap.get?_insert] at hget
  split at hget
  · next hname =>
    cases hget
    obtain rfl := hother.eq_of_name hc hname
    exact hcompile
  · exact h other r hother hget

/-- A cache that answers for a config holds all that the config merges. -/
lemma Closed.exists_of_merges (hclosed : registry.Closed cache) (h : registry.Coherent)
    (hsound : registry.Sound cache) (hc : registry.Has config)
    (hget : cache.get? config.name = some resolved)
    (hmerges : ReflTransGen registry.Merges config other) :
    registry.Has other ∧ ∃ r, cache.get? other.name = some r := by
  induction hmerges with
  | refl => exact ⟨hc, resolved, hget⟩
  | tail _ hstep ih =>
    obtain ⟨hhas, r, hr⟩ := ih
    obtain ⟨s⟩ := stages_of_compile (hclosed _ r hhas hr)
    -- what is remembered is what the registry gives, so the stages are the same
    let s' := s.mono (g := registry.outcomeOf) h.named fun other r hother hok =>
      h.outcomeOf_of_resolves hother (hsound.resolves hother (remembered_eq_ok.mp hok))
    obtain ⟨inherited, he⟩ := s'.merges_iff.mp hstep
    exact ⟨s'.has_of_mem h.named he, inherited, remembered_eq_ok.mp (s.ok_of_mem he)⟩

/-! ### Walks -/

/-- From the one cache to the other only configs with the property were added. -/
def Spreads (added : ReleaseConfig → Prop) (cache cache' : Cache) : Prop :=
  ∀ name resolved, cache'.get? name = some resolved → cache.get? name = some resolved ∨
    ∃ config, added config ∧ config.name = name

lemma Spreads.refl (added : ReleaseConfig → Prop) (cache : Cache) : Spreads added cache cache :=
  fun _ _ h => .inl h

lemma Spreads.trans {added : ReleaseConfig → Prop} {cache'' : Cache}
    (h : Spreads added cache cache') (h' : Spreads added cache' cache'') :
    Spreads added cache cache'' := by
  intro name resolved hget
  rcases h' name resolved hget with hget | hadded
  · exact h name resolved hget
  · exact .inr hadded

lemma Spreads.mono {added more : ReleaseConfig → Prop} (h : Spreads added cache cache')
    (hmore : ∀ config, added config → more config) : Spreads more cache cache' := by
  intro name resolved hget
  rcases h name resolved hget with hget | ⟨config, hadded, hname⟩
  · exact .inl hget
  · exact .inr ⟨config, hmore config hadded, hname⟩

lemma Spreads.insert {added : ReleaseConfig → Prop} (h : Spreads added cache cache')
    (hadded : added config) : Spreads added cache (cache'.insert config.name resolved) := by
  intro name found hget
  rw [NameMap.get?_insert] at hget
  split at hget
  · next hname => exact .inr ⟨config, hadded, hname.symm⟩
  · exact h name found hget

/-- If the walk begins with a sound cache that answers for all its configs, it leaves such a cache
behind, and if it succeeds it added only configs with the property. -/
def Fills (registry : Registry) (walk : Walk α) (added : ReleaseConfig → Prop) : Prop :=
  ∀ cache outcome cache', registry.Sound cache → registry.Closed cache →
    walk.run cache = (outcome, cache') → registry.Closed cache' ∧
      ∀ a, outcome = .ok a → Spreads added cache cache'

lemma Fills.mono {walk : Walk α} {added more : ReleaseConfig → Prop}
    (h : registry.Fills walk added) (hmore : ∀ config, added config → more config) :
    registry.Fills walk more := by
  intro cache outcome cache' hsound hclosed hrun
  obtain ⟨hclosed', hspreads⟩ := h cache outcome cache' hsound hclosed hrun
  exact ⟨hclosed', fun a ha => (hspreads a ha).mono hmore⟩

/-- If the answers to the questions of a plan fill the cache, so does the plan. -/
lemma fills_run {p : Plan α} {resolve : ReleaseConfig → Walk Resolved}
    {added : ReleaseConfig → Prop}
    (hagrees : ∀ other, p.Asks f other → registry.Agrees (resolve other) (f other))
    (hfills : ∀ other, p.Asks f other → registry.Fills (resolve other) added) :
    registry.Fills (p.run resolve) added := by
  induction p with
  | done outcome =>
    rintro cache _ _ - hclosed ⟨⟩
    exact ⟨hclosed, fun _ _ => .refl added cache⟩
  | ask first next ih =>
    intro cache outcome cache' hsound hclosed hrun
    obtain ⟨cache₁, hfirst, hsound₁, -⟩ := hagrees first (.inl rfl) cache hsound
    obtain ⟨hclosed₁, hspreads₁⟩ := hfills first (.inl rfl) cache _ cache₁ hsound hclosed hfirst
    cases hout : f first with
    | error e =>
      rw [hout] at hfirst
      obtain ⟨rfl, rfl⟩ := Prod.mk.inj ((run_bind_of_error hfirst).symm.trans hrun)
      exact ⟨hclosed₁, fun _ h => nomatch h⟩
    | ok r =>
      rw [hout] at hfirst
      have hrest := (run_bind_of_ok hfirst).symm.trans hrun
      obtain ⟨hclosed', hspreads⟩ := ih r (fun other hasks => hagrees other (.inr ⟨r, hout, hasks⟩))
        (fun other hasks => hfills other (.inr ⟨r, hout, hasks⟩)) cache₁ outcome cache' hsound₁
        hclosed₁ hrest
      exact ⟨hclosed', fun a ha => (hspreads₁ r hout).trans (hspreads a ha)⟩

/-- When a plan has succeeded, the cache answers all its questions. -/
lemma run_remembered {p : Plan α} {a : α}
    (hagrees : ∀ other, p.Asks f other →
      registry.Agrees (registry.resolve depth active other) (f other))
    (hsound : registry.Sound cache)
    (hrun : (p.run (registry.resolve depth active)).run cache = (.ok a, cache')) :
    p.run (remembered cache') = .ok a := by
  induction p generalizing cache with
  | done outcome =>
    obtain ⟨rfl, -⟩ := Prod.mk.inj hrun
    rfl
  | ask first next ih =>
    obtain ⟨r, cache₁, hfirst, hrest⟩ := exists_of_run_bind_eq_ok hrun
    obtain ⟨_, hfirst', hsound₁, -⟩ := hagrees first (.inl rfl) cache hsound
    obtain ⟨hout, rfl⟩ := Prod.mk.inj (hfirst'.symm.trans hfirst)
    have hagrees' (other : ReleaseConfig) (hasks : (next r).Asks f other) :=
      hagrees other (.inr ⟨r, hout, hasks⟩)
    -- the answer is in the cache from then on
    obtain ⟨_, hrest', -, hkeeps⟩ := agrees_run hagrees' _ hsound₁
    obtain ⟨-, rfl⟩ := Prod.mk.inj (hrest'.symm.trans hrest)
    have hget := hkeeps _ _ (get?_of_resolve_run hfirst)
    exact bind_eq_ok.mpr ⟨r, remembered_eq_ok.mpr hget, ih r hagrees' hsound₁ hrest⟩

/-- The walk leaves the cache as it is where the config is remembered or being resolved. -/
lemma resolve_run_of_mem (h : (cache.get? config.name).isSome ∨ config.name ∈ active) :
    ((registry.resolve depth active config).run cache).2 = cache := by
  rw [resolve_run]
  cases hget : cache.get? config.name with
  | some resolved => rfl
  | none =>
    rw [hget] at h
    have hmem : config.name ∈ active := h.resolve_left (by simp)
    simp only [if_pos hmem]

/-- Compiling a config adds only configs that it merges, directly or through others, if resolving
other configs does. -/
lemma fills_plan {resolve : ReleaseConfig → Walk Resolved} (h : registry.Coherent)
    (hf : ∀ other r, f other = .ok r → registry.Resolves other r)
    (hagrees : ∀ other, (registry.plan config).Asks f other →
      registry.Agrees (resolve other) (f other))
    (hfills : ∀ other, (registry.plan config).Asks f other →
      registry.Fills (resolve other) (ReflTransGen registry.Merges other)) :
    registry.Fills ((registry.plan config).run resolve) (ReflTransGen registry.Merges config) := by
  cases hout : (registry.plan config).run f with
  | error e =>
    intro cache outcome cache' hsound hclosed hrun
    have hany : registry.Fills ((registry.plan config).run resolve) fun _ => True :=
      fills_run hagrees fun other hasks => (hfills other hasks).mono fun _ _ => trivial
    refine ⟨(hany cache outcome cache' hsound hclosed hrun).1, fun a ha => ?_⟩
    -- the walk fails as the plan does
    obtain ⟨_, hrun', -⟩ := agrees_run hagrees cache hsound
    obtain ⟨rfl, -⟩ := Prod.mk.inj (hrun'.symm.trans hrun)
    rw [hout] at ha
    cases ha
  | ok resolved =>
    refine fills_run hagrees fun other hasks => (hfills other hasks).mono fun x hx => ?_
    rw [← compile_eq_run] at hout
    obtain ⟨s⟩ := stages_of_compile hout
    obtain ⟨inherited, he⟩ := s.exists_mem_of_asks hasks
    let s' := s.mono (g := registry.outcomeOf) h.named fun other r hother hok =>
      h.outcomeOf_of_resolves hother (hf other r hok)
    exact .head (s'.merges_iff.mpr ⟨inherited, he⟩) hx

/-- A walk that succeeds adds only configs that its config merges, directly or through others. -/
theorem resolve_fills (h : registry.Coherent) (hc : registry.Has config)
    (henough : registry.Enough depth active) (hw : registry.Awaits active config) :
    registry.Fills (registry.resolve depth active config)
      (ReflTransGen registry.Merges config) := by
  -- where nothing has to be compiled, nothing is added
  have hknown {depth : Nat} {active : List String} {config : ReleaseConfig} {cache cache' : Cache}
      {outcome : Except Error Resolved} (hclosed : registry.Closed cache)
      (hrun : (registry.resolve depth active config).run cache = (outcome, cache'))
      (hmem : (cache.get? config.name).isSome ∨ config.name ∈ active) :
      registry.Closed cache' ∧ ∀ a, outcome = .ok a →
        Spreads (ReflTransGen registry.Merges config) cache cache' := by
    obtain rfl : cache' = cache := by rw [← resolve_run_of_mem hmem, hrun]
    exact ⟨hclosed, fun _ _ => .refl _ cache'⟩
  induction depth generalizing active config with
  | zero =>
    intro cache outcome cache' _ hclosed hrun
    exact hknown hclosed hrun (.inr (henough.mem_of_zero hc))
  | succ depth ih =>
    intro cache outcome cache' hsound hclosed hrun
    by_cases hmem : (cache.get? config.name).isSome ∨ config.name ∈ active
    · exact hknown hclosed hrun hmem
    · obtain ⟨hget, hactive⟩ := not_or.mp hmem
      rw [Option.not_isSome_iff_eq_none] at hget
      rw [resolve_run, hget] at hrun
      simp only [if_neg hactive] at hrun
      have henough' := henough.step hc hactive
      have hhas (other : ReleaseConfig) (hasks : (registry.plan config).Asks
          (registry.resolveAnew depth (config.name :: active)) other) : registry.Has other :=
        ((registry.plan_all_edge config).of_asks hasks).has h.named
      have hagrees := fun other hasks => resolve_agrees h.named (hhas other hasks) henough'
        (hw.cons hc (fun _ _ hok => .of_ok hok) hasks)
      have hfills := fun other hasks => ih (hhas other hasks) henough'
        (hw.cons hc (fun _ _ hok => .of_ok hok) hasks)
      obtain ⟨cache₁, hrun₁, hsound₁, hkeeps₁⟩ := agrees_run hagrees cache hsound
      obtain ⟨hclosed₁, hspreads₁⟩ := fills_plan h (fun _ _ hok => .of_ok hok) hagrees hfills
        cache _ cache₁ hsound hclosed hrun₁
      rw [hrun₁] at hrun
      cases hout : (registry.plan config).run
          (registry.resolveAnew depth (config.name :: active)) with
      | error e =>
        rw [hout] at hrun
        obtain ⟨rfl, rfl⟩ := Prod.mk.inj hrun
        exact ⟨hclosed₁, fun _ ha => nomatch ha⟩
      | ok resolved =>
        rw [hout] at hrun hrun₁
        obtain ⟨rfl, rfl⟩ := Prod.mk.inj hrun
        have hcompile := run_remembered hagrees hsound hrun₁
        rw [← compile_eq_run] at hcompile
        have hr : registry.Resolves config resolved :=
          .of_ok ((registry.resolveAnew_succ depth hactive).trans hout)
        exact ⟨hclosed₁.insert hc (hsound₁.keeps_insert hc hr) hcompile,
          fun _ _ => (hspreads₁ resolved hout).insert .refl⟩

/-! ### Calls -/

/-- What holds between any two calls: the registry is coherent, and its cache answers for all its
configs. -/
structure Complete (registry : Registry) : Prop extends registry.Coherent where
  closed : registry.Closed registry.resolved

lemma preserves_generate (name : String) : Preserves Complete (generate name) := by
  intro registry h
  rw [generate_run]
  cases hname : registry.configStrict name with
  | error e => exact h
  | ok config =>
    have hc : registry.Has config := has_of_lookup h.named hname
    obtain ⟨cache', hrun, hsound, -⟩ := resolveIn_agrees h.named hc _ h.sound
    have hfills := resolve_fills h.toCoherent hc (enough_nil (Nat.le_refl _)) (awaits_nil config)
    simp only [hrun]
    exact ⟨h.withCache hsound, (hfills _ _ cache' h.sound h.closed hrun).1⟩

/-- Every call leaves a cache that answers for all its configs, also a call that fails. -/
lemma preserves_perform (call : Call) : Preserves Complete call.perform := by
  cases call with
  | generate name => exact preserves_bind (preserves_generate name) fun _ => preserves_pure _
  | generateAll target =>
    refine preserves_bind (preserves_get_bind fun before h => ?_) fun _ => preserves_pure _
    have hall : Preserves Complete (before.configs.names.forM fun name => do
        let _ ← generate name : Session PUnit) :=
      preserves_forM fun name => preserves_bind (preserves_generate name) fun _ => preserves_pure _
    refine preserves_bind hall (fun _ => preserves_get_bind fun between h => ?_) before h
    refine preserves_bind (preserves_liftExcept _) (fun found => ?_) between h
    refine preserves_bind (preserves_liftExcept _) fun first => ?_
    exact preserves_bind (preserves_liftExcept _) fun others => preserves_pure _
  | makefile name target =>
    refine preserves_bind (preserves_bind (preserves_generate name) fun resolved => ?_)
      fun _ => preserves_pure _
    refine preserves_bind (preserves_mapM fun extra => ?_) fun extras => ?_
    · exact preserves_bind (preserves_generate extra) fun _ => preserves_pure _
    · exact preserves_get_bind fun _ h => h
  | setOptions options =>
    refine preserves_bind (preserves_modify fun registry h => ?_) fun _ => preserves_pure _
    exact ⟨h.setOptions options, closed_empty⟩

lemma Reached.complete (h : registry.Reached) : registry.Complete := by
  obtain ⟨source, directories, scanned, allowMissing, options, calls, hscan, rfl⟩ := h
  have hstart : ({ scanned with allowMissing }.setOptions options).Complete :=
    ⟨((scanned_of_scan hscan).coherent allowMissing).setOptions options, closed_empty⟩
  revert hstart
  generalize { scanned with allowMissing }.setOptions options = registry
  intro hstart
  induction calls generalizing registry with
  | nil => exact hstart
  | cons call rest ih => exact ih _ (preserves_perform call registry hstart)

/-- What the registry remembers of a config is what resolving it without memory gives. -/
lemma Coherent.generate_of_remembered (h : registry.Coherent) {name : String}
    (hget : registry.resolved.get? name = some resolved) :
    ∃ config, registry.Has config ∧ config.name = name ∧
      ((generate name).run registry.forget).1 = .ok resolved := by
  obtain ⟨config, hc, rfl, -⟩ := h.sound name resolved hget
  refine ⟨config, hc, rfl, ?_⟩
  have hrun := generate_of_get? (h.configStrict_self hc) hget
  rw [h.forget.generate_eq, Registry.forget, resolution_withCache, ← h.generate_eq, hrun]

/-- What does not resolve without memory is not remembered. -/
lemma Coherent.get?_eq_none (h : registry.Coherent) {name : String} {e : Error}
    (herror : ((generate name).run registry.forget).1 = .error e) :
    registry.resolved.get? name = none := by
  refine Option.eq_none_iff_forall_ne_some.mpr fun r hget => ?_
  obtain ⟨-, -, -, hr⟩ := h.generate_of_remembered hget
  exact nomatch herror.symm.trans hr

/-- What a config resolves to without memory, by its own name. -/
lemma Coherent.generate_forget (h : registry.Coherent) (hc : registry.Has config) :
    ((generate config.name).run registry.forget).1 = registry.anew config := by
  rw [h.forget.generate_eq, Registry.forget, resolution_withCache, resolution,
    h.configStrict_self hc]
  rfl

/-- A call that succeeds leaves its config in the cache, and adds only what the config merges. -/
lemma Complete.spreads (h : registry.Complete) {name : String}
    (hr : ((generate name).run registry).1 = .ok resolved) :
    ∃ config, registry.configStrict name = .ok config ∧ registry.Has config ∧
      ((generate name).run registry).2.resolved.get? config.name = some resolved ∧
      Spreads (ReflTransGen registry.Merges config) registry.resolved
        ((generate name).run registry).2.resolved := by
  obtain ⟨config, hconfig, hc, hout⟩ := h.toCoherent.exists_of_generate hr
  have hfills := resolve_fills h.toCoherent hc (enough_nil (Nat.le_refl _)) (awaits_nil config)
  have hrun : (registry.resolveIn config).run registry.resolved =
      (.ok resolved, ((registry.resolveIn config).run registry.resolved).2) :=
    Prod.ext hout rfl
  rw [generate_run, hconfig]
  exact ⟨config, rfl, hc, get?_of_resolve_run hrun,
    (hfills _ _ _ h.sound h.closed hrun).2 resolved rfl⟩

/-- Whatever calls were made before, resolving a name changes nothing of the registry but the cache,
and no entry of the cache.  If it succeeds, exactly the configs are added that the config of the
name merges, directly or through others, each with what resolving it without memory gives; so the
cache holds with a config always all that it merges.  If it fails, only configs that resolve
without memory are added, and neither the config of the name is in the cache nor any other one that
does not resolve. -/
theorem cache_of_generate (h : registry.Reached) (name : String) :
    let after := ((generate name).run registry).2
    after = registry.withCache after.resolved ∧
      Keeps registry.resolved after.resolved ∧
      (∀ resolved, ((generate name).run registry).1 = .ok resolved →
        ∃ config, registry.configStrict name = .ok config ∧
          ∀ key r, after.resolved.get? key = some r ↔ registry.resolved.get? key = some r ∨
            ∃ other, ReflTransGen registry.Merges config other ∧ other.name = key ∧
              ((generate key).run registry.forget).1 = .ok r) ∧
      (∀ used ∈ [registry, after], ∀ config resolved other, used.Has config →
        used.resolved.get? config.name = some resolved → ReflTransGen used.Merges config other →
          ∃ r, used.resolved.get? other.name = some r) ∧
      ∀ e, ((generate name).run registry).1 = .error e →
        (∀ key r, after.resolved.get? key = some r → registry.resolved.get? key = some r ∨
          ∃ other, registry.Has other ∧ other.name = key ∧
            ((generate key).run registry.forget).1 = .ok r) ∧
        (∀ config, registry.configStrict name = .ok config →
          after.resolved.get? config.name = none) ∧
        ∀ other e', registry.Has other →
          ((generate other.name).run registry.forget).1 = .error e' →
            after.resolved.get? other.name = none := by
  intro after
  have hcomplete := h.complete
  have hcoherent := hcomplete.toCoherent
  have hafter : after.Complete := preserves_generate name registry hcomplete
  obtain ⟨cache, hanswer, hsound, hkeeps⟩ := answers_generate hcoherent name _ hcoherent.sound
  have hrun : (generate name).run registry =
    (registry.resolution name, registry.withCache cache) := hanswer
  have heq : after = registry.withCache cache := congrArg Prod.snd hrun
  clear_value after
  subst heq
  have hclosed : registry.Closed cache := hafter.closed
  -- what the cache holds afterwards resolves, and the registry without memory is the same
  have hremembered {key : String} {r : Resolved} (hget : cache.get? key = some r) :
      ∃ other, registry.Has other ∧ other.name = key ∧
        ((generate key).run registry.forget).1 = .ok r :=
    hafter.toCoherent.generate_of_remembered hget
  refine ⟨rfl, hkeeps, fun resolved hr => ?_, ?_, fun e hr => ⟨?_, ?_, ?_⟩⟩
  · obtain ⟨config, hconfig, hc, hself, hspreads⟩ := hcomplete.spreads hr
    rw [hrun] at hself hspreads
    refine ⟨config, hconfig, fun key r => ⟨fun hget => ?_, ?_⟩⟩
    · rcases hspreads key r hget with hold | ⟨other, hmerges, hname⟩
      · exact .inl hold
      · obtain ⟨-, -, -, hr⟩ := hremembered hget
        exact .inr ⟨other, hmerges, hname, hr⟩
    · rintro (hold | ⟨other, hmerges, rfl, hr⟩)
      · exact hkeeps key r hold
      · obtain ⟨-, r', hget⟩ := hclosed.exists_of_merges hcoherent hsound hc hself hmerges
        obtain ⟨-, -, -, hr'⟩ := hremembered hget
        obtain rfl : r = r' := Except.ok.inj (hr.symm.trans hr')
        exact hget
  · intro used hused config resolved other hc hget hmerges
    have hused : used.Complete := by
      rcases List.mem_cons.mp hused with rfl | hused
      · exact hcomplete
      · exact List.mem_singleton.mp hused ▸ hafter
    exact (hused.closed.exists_of_merges hused.toCoherent hused.sound hc hget hmerges).2
  · intro key r hget
    exact .inr (hremembered hget)
  · intro config hconfig
    have hc : registry.Has config := has_of_lookup hcoherent.named hconfig
    -- the config would resolve by its own name, and so by every name
    have hown : ((generate config.name).run registry.forget).1 = .error e := by
      rw [hrun, resolution, hconfig] at hr
      exact (hcoherent.generate_forget hc).trans hr
    exact hafter.toCoherent.get?_eq_none hown
  · intro other e' _ hr'
    exact hafter.toCoherent.get?_eq_none hr'

/-- When a config is resolved, a config that it inherits is cached too. -/
theorem cache_of_generate_layered : layered.Reached ∧
    ∃ config parent resolved, layered.configStrict "a" = .ok config ∧
      layered.Parent config parent ∧ ((generate "a").run layered).1 = .ok resolved ∧
      ∃ r, ((generate "a").run layered).2.resolved.get? parent.name = some r := by
  obtain ⟨config, parent, resolved, hconfig, hparent, hrun, -⟩ := layered_shows
  have hcache := cache_of_generate layered_reached "a"
  obtain ⟨found, hfound, hadded⟩ := hcache.2.2.1 resolved hrun
  obtain rfl : config = found := Except.ok.inj (hconfig.symm.trans hfound)
  have hcoherent := layered_reached.coherent
  obtain ⟨_, hconfig', hc, hr⟩ := hcoherent.exists_of_generate hrun
  obtain rfl := Except.ok.inj (hconfig.symm.trans hconfig')
  obtain ⟨hhas, r, hr⟩ := hcoherent.exists_outcome_of_merges hc hr (.single (.inl hparent))
  have hanew := (hcoherent.generate_forget hhas).trans ((hcoherent.outcomeOf_eq hhas).symm.trans hr)
  refine ⟨layered_reached, config, parent, resolved, hconfig, hparent, hrun, r, ?_⟩
  exact (hadded parent.name r).mpr (.inr ⟨parent, .single (.inl hparent), rfl, hanew⟩)

end Registry

end ReleaseFlags
