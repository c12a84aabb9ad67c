import ReleaseFlags.Proofs.Resolution.Anew

/-!
# Resolving with a cache

The walk with a cache has the outcome of resolving anew, whatever was resolved before and
whatever is being resolved, and it leaves a cache of the same kind behind
(`resolve_agrees`).  The invariant is that the cache is sound: it holds resolutions only.
Nothing is said about which configs it holds, so it does not matter whether an earlier walk
succeeded.
-/

namespace ReleaseFlags

namespace Registry

variable {registry : Registry} {config : ReleaseConfig} {resolved : Resolved}
  {cache cache' : Cache} {depth : Nat} {active : List String} {α : Type}

/-! ### One step of the walk -/

/-- What the walk does with a config. -/
lemma resolve_run (depth : Nat) (active : List String) (config : ReleaseConfig) (cache : Cache) :
    (registry.resolve depth active config).run cache =
      match cache.get? config.name with
      | some resolved => (.ok resolved, cache)
      | none =>
        if config.name ∈ active then (.error (.inheritanceLoop config.name), cache)
        else match depth with
          | 0 => (.error (.inheritanceLoop config.name), cache)
          | depth + 1 =>
            match ((registry.plan config).run
                (registry.resolve depth (config.name :: active))).run cache with
            | (.ok resolved, cache') => (.ok resolved, cache'.insert config.name resolved)
            | (.error e, cache') => (.error e, cache') := by
  have hget : (get : Walk Cache).run cache = (.ok cache, cache) := rfl
  cases depth with
  | zero =>
    rw [resolve, run_bind_of_ok hget]
    cases cache.get? config.name with
    | some resolved => rfl
    | none =>
      by_cases hmem : config.name ∈ active
      · simp only [if_pos hmem]
        rfl
      · simp only [if_neg hmem]
        rfl
  | succ depth =>
    rw [resolve, run_bind_of_ok hget]
    cases cache.get? config.name with
    | some resolved => rfl
    | none =>
      by_cases hmem : config.name ∈ active
      · simp only [if_pos hmem]
        rfl
      · simp only [if_neg hmem, compile_eq_run]
        rcases hrun : ((registry.plan config).run
          (registry.resolve depth (config.name :: active))).run cache with ⟨_ | _, cache'⟩
        · exact run_bind_of_error hrun
        · rw [run_bind_of_ok hrun]
          rfl

/-- After a config is resolved it is in the cache. -/
lemma get?_of_resolve_run
    (h : (registry.resolve depth active config).run cache = (.ok resolved, cache')) :
    cache'.get? config.name = some resolved := by
  rw [resolve_run] at h
  cases hget : cache.get? config.name with
  | some found =>
    rw [hget] at h
    obtain ⟨⟨⟩, rfl⟩ := Prod.mk.inj h
    exact hget
  | none =>
    rw [hget] at h
    by_cases hmem : config.name ∈ active
    · simp only [if_pos hmem] at h
      cases (Prod.mk.inj h).1
    · cases depth with
      | zero =>
        simp only [if_neg hmem] at h
        cases (Prod.mk.inj h).1
      | succ depth =>
        simp only [if_neg hmem] at h
        split at h
        · obtain ⟨⟨⟩, rfl⟩ := Prod.mk.inj h
          exact NameMap.get?_insert_self _ _ _
        · cases (Prod.mk.inj h).1

/-! ### What a walk leaves behind -/

/-- The cache holds resolutions of configs of the registry, under their names. -/
def Sound (registry : Registry) (cache : Cache) : Prop :=
  ∀ name resolved, cache.get? name = some resolved →
    ∃ config, registry.Has config ∧ config.name = name ∧ registry.Resolves config resolved

lemma sound_empty : registry.Sound NameMap.empty := by
  intro name resolved h
  rw [NameMap.get?_empty] at h
  cases h

lemma Sound.insert (h : registry.Sound cache) (hc : registry.Has config)
    (hr : registry.Resolves config resolved) :
    registry.Sound (cache.insert config.name resolved) := by
  intro name found hfound
  rw [NameMap.get?_insert] at hfound
  split at hfound
  · next hname =>
    cases hfound
    exact ⟨config, hc, hname.symm, hr⟩
  · exact h name found hfound

/-- What a sound cache holds for a config is its resolution. -/
lemma Sound.resolves (h : registry.Sound cache) (hc : registry.Has config)
    (hget : cache.get? config.name = some resolved) : registry.Resolves config resolved := by
  obtain ⟨other, hother, hname, hr⟩ := h _ _ hget
  obtain rfl := hother.eq_of_name hc hname
  exact hr

/-- The other cache has all entries of the first one. -/
def Keeps (cache cache' : Cache) : Prop :=
  ∀ name resolved, cache.get? name = some resolved → cache'.get? name = some resolved

lemma Keeps.refl (cache : Cache) : Keeps cache cache := fun _ _ h => h

lemma Keeps.trans {cache'' : Cache} (h : Keeps cache cache') (h' : Keeps cache' cache'') :
    Keeps cache cache'' := fun name resolved hget => h' name resolved (h name resolved hget)

/-- An entry that a sound cache has for a config can only be replaced by the same resolution. -/
lemma Sound.keeps_insert (h : registry.Sound cache) (hc : registry.Has config)
    (hr : registry.Resolves config resolved) :
    Keeps cache (cache.insert config.name resolved) := by
  intro name found hfound
  rw [NameMap.get?_insert]
  split
  · next hname =>
    subst hname
    rw [hr.unique (h.resolves hc hfound)]
  · exact hfound

/-- In any sound cache a walk has the given outcome; it leaves a sound cache behind and
changes no entry. -/
def Agrees (registry : Registry) (walk : Walk α) (outcome : Except Error α) : Prop :=
  ∀ cache, registry.Sound cache → ∃ cache', walk.run cache = (outcome, cache') ∧
    registry.Sound cache' ∧ Keeps cache cache'

/-- If the answers to the questions of a plan agree, so do its outcomes. -/
lemma agrees_run {p : Plan α} {resolve : ReleaseConfig → Walk Resolved}
    {f : ReleaseConfig → Except Error Resolved}
    (h : ∀ other, p.Asks f other → registry.Agrees (resolve other) (f other)) :
    registry.Agrees (p.run resolve) (p.run f) := by
  induction p with
  | done outcome => exact fun cache hcache => ⟨cache, rfl, hcache, .refl cache⟩
  | ask first next ih =>
    intro cache hcache
    obtain ⟨cache₁, hrun, hsound, hkeeps⟩ := h first (.inl rfl) cache hcache
    cases hfirst : f first with
    | error e =>
      rw [hfirst] at hrun
      refine ⟨cache₁, (run_bind_of_error hrun).trans ?_, hsound, hkeeps⟩
      simp only [Plan.run, hfirst]
      rfl
    | ok resolved =>
      rw [hfirst] at hrun
      have hnext := ih resolved fun other hasks => h other (.inr ⟨resolved, hfirst, hasks⟩)
      obtain ⟨cache₂, hrun₂, hsound₂, hkeeps₂⟩ := hnext cache₁ hsound
      refine ⟨cache₂, (run_bind_of_ok hrun).trans (hrun₂.trans ?_), hsound₂, hkeeps.trans hkeeps₂⟩
      simp only [Plan.run, hfirst]
      rfl

/-- The walk with a cache has the outcome of resolving anew. -/
theorem resolve_agrees (hn : registry.Named) (hc : registry.Has config)
    (henough : registry.Enough depth active) (hw : registry.Awaits active config) :
    registry.Agrees (registry.resolve depth active config)
      (registry.resolveAnew depth active config) := by
  induction depth generalizing active config with
  | zero =>
    intro cache hcache
    -- every config is active, so the cache cannot hold this one
    have hmem := henough.mem_of_zero hc
    refine ⟨cache, ?_, hcache, .refl cache⟩
    rw [resolve_run, resolveAnew_of_mem 0 hmem]
    cases hget : cache.get? config.name with
    | some resolved => exact absurd hmem (hw.not_mem hc (hcache.resolves hc hget))
    | none => simp only [if_pos hmem]
  | succ depth ih =>
    intro cache hcache
    rw [resolve_run]
    cases hget : cache.get? config.name with
    | some resolved =>
      -- an entry from another walk is what is found here, below the active configs
      have hr := (hcache.resolves hc hget).resolveAnew_eq hn hc henough hw
      exact ⟨cache, by rw [hr], hcache, .refl cache⟩
    | none =>
      by_cases hmem : config.name ∈ active
      · refine ⟨cache, ?_, hcache, .refl cache⟩
        rw [resolveAnew_of_mem _ hmem]
        simp only [if_pos hmem]
      · have hagrees := agrees_run fun other hasks =>
          have hedge := (registry.plan_all_edge config).of_asks hasks
          ih (hedge.has hn) (henough.step hc hmem) (hw.cons hc (fun _ _ hok => .of_ok hok) hasks)
        obtain ⟨cache', hrun, hsound, hkeeps⟩ := hagrees cache hcache
        simp only [if_neg hmem, hrun]
        have hanew := registry.resolveAnew_succ depth hmem
        rw [← hanew] at hrun ⊢
        cases hout : registry.resolveAnew (depth + 1) active config with
        | error e => exact ⟨cache', rfl, hsound, hkeeps⟩
        | ok resolved =>
          have hr : registry.Resolves config resolved := .of_ok hout
          exact ⟨cache'.insert config.name resolved, rfl, hsound.insert hc hr,
            hkeeps.trans (hsound.keeps_insert hc hr)⟩

lemma resolveIn_agrees (hn : registry.Named) (hc : registry.Has config) :
    registry.Agrees (registry.resolveIn config) (registry.anew config) :=
  resolve_agrees hn hc (enough_nil (Nat.le_refl _)) (awaits_nil config)

end Registry

end ReleaseFlags
