import ReleaseFlags.Proofs.Resolution.Graph

/-!
# Resolving without a cache

`anew` resolves a config and remembers nothing: a config that is met twice is resolved
twice.  Here the configs that are being resolved are a list of names, as in the walk with
the cache.  The main facts are

* a result does not depend on the depth or on the configs that were being resolved when the
  config was met (`resolveAnew_mono`, `resolveAnew_of_awaits`);
* in a registry the bound on the depth is never reached (`resolveAnew_succ_eq`).

A config that succeeds alone could fail below others only by meeting one of them again.  But
then the two would inherit each other and neither could be resolved: with each step towards
what is inherited, less depth suffices (`Awaits`).
-/

namespace ReleaseFlags

namespace Registry

variable {registry : Registry} {config other : ReleaseConfig} {resolved : Resolved}
  {depth : Nat} {active : List String}

/-- Resolves a config and all that it inherits, remembering nothing, at most the given number
of configs deep. -/
def resolveAnew (registry : Registry) : Nat → List String → ReleaseConfig → Except Error Resolved
  | depth, active, config =>
    if config.name ∈ active then .error (.inheritanceLoop config.name)
    else match depth with
      | 0 => .error (.inheritanceLoop config.name)
      | depth + 1 => registry.compile (resolveAnew registry depth (config.name :: active)) config

/-- Resolves a config, remembering nothing. -/
def anew (registry : Registry) (config : ReleaseConfig) : Except Error Resolved :=
  registry.resolveAnew registry.configs.size [] config

lemma resolveAnew_of_mem (depth : Nat) (h : config.name ∈ active) :
    registry.resolveAnew depth active config = .error (.inheritanceLoop config.name) := by
  cases depth with
  | zero => rw [resolveAnew, if_pos h]
  | succ depth => rw [resolveAnew, if_pos h]

lemma resolveAnew_zero (active : List String) (config : ReleaseConfig) :
    registry.resolveAnew 0 active config = .error (.inheritanceLoop config.name) := by
  by_cases h : config.name ∈ active
  · exact resolveAnew_of_mem 0 h
  · simp only [resolveAnew, if_neg h]

lemma resolveAnew_succ (depth : Nat) (h : config.name ∉ active) :
    registry.resolveAnew (depth + 1) active config =
      (registry.plan config).run (registry.resolveAnew depth (config.name :: active)) := by
  rw [resolveAnew, if_neg h]
  exact compile_eq_run registry _ config

lemma resolveAnew_succ_eq_ok (h : registry.resolveAnew depth active config = .ok resolved) :
    config.name ∉ active ∧ ∃ less, depth = less + 1 ∧
      (registry.plan config).run (registry.resolveAnew less (config.name :: active)) =
        .ok resolved := by
  have hmem : config.name ∉ active := by
    intro hmem
    rw [resolveAnew_of_mem depth hmem] at h
    cases h
  refine ⟨hmem, ?_⟩
  cases depth with
  | zero =>
    rw [resolveAnew_zero] at h
    cases h
  | succ less => exact ⟨less, rfl, (resolveAnew_succ less hmem).symm.trans h⟩

/-- More depth and fewer configs that are being resolved do not change a result. -/
theorem resolveAnew_mono {depth' : Nat} {active' : List String}
    (h : registry.resolveAnew depth active config = .ok resolved) (hdepth : depth ≤ depth')
    (hactive : active' ⊆ active) : registry.resolveAnew depth' active' config = .ok resolved := by
  induction depth generalizing depth' active active' config resolved with
  | zero =>
    rw [resolveAnew_zero] at h
    cases h
  | succ depth ih =>
    obtain ⟨hmem, less, hless, hrun⟩ := resolveAnew_succ_eq_ok h
    obtain rfl : depth = less := by omega
    obtain ⟨more, rfl⟩ : ∃ more, depth' = more + 1 := ⟨depth' - 1, by omega⟩
    rw [resolveAnew_succ more fun hmem' => hmem (hactive hmem')]
    -- the same answers are given one step deeper, below the config itself as well
    refine Plan.run_ok_of_asks hrun fun config resolved _ hok => ?_
    exact ih hok (by omega) (List.cons_subset_cons _ hactive)

/-! ### Results -/

/-- A config has a resolution, found at some depth. -/
def Resolves (registry : Registry) (config : ReleaseConfig) (resolved : Resolved) : Prop :=
  ∃ depth, registry.resolveAnew depth [] config = .ok resolved

lemma Resolves.of_ok (h : registry.resolveAnew depth active config = .ok resolved) :
    registry.Resolves config resolved :=
  ⟨depth, resolveAnew_mono h (Nat.le_refl _) (List.nil_subset _)⟩

/-- A config has at most one resolution. -/
lemma Resolves.unique {resolved' : Resolved} (h : registry.Resolves config resolved)
    (h' : registry.Resolves config resolved') : resolved = resolved' := by
  obtain ⟨depth, h⟩ := h
  obtain ⟨depth', h'⟩ := h'
  have hmax := resolveAnew_mono h (Nat.le_max_left depth depth') (List.Subset.refl _)
  have hmax' := resolveAnew_mono h' (Nat.le_max_right depth depth') (List.Subset.refl _)
  exact Except.ok.inj (hmax.symm.trans hmax')

/-- A resolution was compiled from resolutions. -/
lemma Resolves.exists_compile (h : registry.Resolves config resolved) :
    ∃ f : ReleaseConfig → Except Error Resolved,
      (∀ other r, f other = .ok r → registry.Resolves other r) ∧
        registry.compile f config = .ok resolved := by
  obtain ⟨depth, h⟩ := h
  obtain ⟨-, less, -, hrun⟩ := resolveAnew_succ_eq_ok h
  rw [← compile_eq_run] at hrun
  exact ⟨_, fun _ _ hok => .of_ok hok, hrun⟩

/-- What holds of a config as soon as it holds of all that its resolution was compiled from
holds of every config that has a resolution. -/
theorem Resolves.induction {P : ReleaseConfig → Resolved → Prop}
    (step : ∀ (f : ReleaseConfig → Except Error Resolved) config resolved,
      (∀ other r, f other = .ok r → registry.Resolves other r ∧ P other r) →
      registry.compile f config = .ok resolved → P config resolved)
    (h : registry.Resolves config resolved) : P config resolved := by
  obtain ⟨depth, h⟩ := h
  -- what is inherited is resolved below other configs, so nothing is fixed but the depth
  revert h
  generalize [] = active
  induction depth generalizing active config resolved with
  | zero =>
    intro h
    rw [resolveAnew_zero] at h
    cases h
  | succ depth ih =>
    intro h
    obtain ⟨-, less, hless, hrun⟩ := resolveAnew_succ_eq_ok h
    obtain rfl : depth = less := by omega
    rw [← compile_eq_run] at hrun
    exact step _ config resolved (fun other r hok => ⟨.of_ok hok, ih _ hok⟩) hrun

/-! ### The configs that are being resolved -/

/-- Whenever one of the active configs has a resolution, so has the config, with less depth. -/
def Awaits (registry : Registry) (active : List String) (config : ReleaseConfig) : Prop :=
  ∀ waiting, registry.Has waiting → waiting.name ∈ active → ∀ depth resolved,
    registry.resolveAnew (depth + 1) [] waiting = .ok resolved →
      ∃ r, registry.resolveAnew depth [] config = .ok r

lemma awaits_nil (config : ReleaseConfig) : registry.Awaits [] config := by
  intro waiting _ hmem
  cases hmem

/-- A config that has a resolution does not wait for itself. -/
lemma Awaits.not_mem (h : registry.Awaits active config) (hc : registry.Has config)
    (hr : registry.Resolves config resolved) : config.name ∉ active := by
  intro hmem
  obtain ⟨depth, hr⟩ := hr
  -- if it were active, any depth at which it has a resolution could be made less
  induction depth generalizing resolved with
  | zero =>
    rw [resolveAnew_zero] at hr
    cases hr
  | succ depth ih =>
    obtain ⟨r, hr'⟩ := h config hc hmem depth resolved hr
    exact ih hr'

/-- What a config asks for is awaited by the config and by all that wait for it. -/
lemma Awaits.cons {f : ReleaseConfig → Except Error Resolved} (h : registry.Awaits active config)
    (hc : registry.Has config) (hf : ∀ other r, f other = .ok r → registry.Resolves other r)
    (hasks : (registry.plan config).Asks f other) :
    registry.Awaits (config.name :: active) other := by
  have hless (depth : Nat) (r : Resolved)
      (hok : registry.resolveAnew (depth + 1) [] config = .ok r) :
      ∃ r', registry.resolveAnew depth [] other = .ok r' := by
    obtain ⟨-, less, hless, hrun⟩ := resolveAnew_succ_eq_ok hok
    obtain rfl : depth = less := by omega
    obtain ⟨r', hr'⟩ := hasks.ok_of_run_ok hrun fun config r s hr hs =>
      (hf config r hr).unique (.of_ok hs)
    exact ⟨r', resolveAnew_mono hr' (Nat.le_refl _) (List.nil_subset _)⟩
  intro waiting hw hmem depth r hok
  rcases List.mem_cons.mp hmem with hname | hmem
  · obtain rfl := hw.eq_of_name hc hname
    exact hless depth r hok
  · obtain ⟨r', hr'⟩ := h waiting hw hmem depth r hok
    obtain ⟨-, less, rfl, -⟩ := resolveAnew_succ_eq_ok hr'
    obtain ⟨r'', hr''⟩ := hless less r' hr'
    exact ⟨r'', resolveAnew_mono hr'' (by omega) (List.Subset.refl _)⟩

/-- A resolution is also found below the configs that wait for it. -/
theorem resolveAnew_of_awaits (hn : registry.Named) (hc : registry.Has config)
    (hw : registry.Awaits active config)
    (h : registry.resolveAnew depth [] config = .ok resolved) :
    registry.resolveAnew depth active config = .ok resolved := by
  induction depth generalizing active config resolved with
  | zero =>
    rw [resolveAnew_zero] at h
    cases h
  | succ depth ih =>
    obtain ⟨-, less, hless, hrun⟩ := resolveAnew_succ_eq_ok h
    obtain rfl : depth = less := by omega
    rw [resolveAnew_succ depth (hw.not_mem hc ⟨_, h⟩)]
    refine Plan.run_ok_of_asks hrun fun other r hasks hok => ?_
    have hedge := (registry.plan_all_edge config).of_asks hasks
    have hawaits := hw.cons hc (fun _ _ hok => .of_ok hok) hasks
    exact ih (hedge.has hn) hawaits (resolveAnew_mono hok (Nat.le_refl _) (List.nil_subset _))

/-! ### The depth -/

/-- The active configs are different configs of the registry, and the depth suffices for all
others. -/
structure Enough (registry : Registry) (depth : Nat) (active : List String) : Prop where
  nodup : active.Nodup
  subset : active ⊆ registry.configs.names
  size_le : registry.configs.size ≤ active.length + depth

lemma enough_nil (h : registry.configs.size ≤ depth) : registry.Enough depth [] :=
  ⟨List.nodup_nil, List.nil_subset _, by simpa using h⟩

/-- Where no depth is left, every config is active. -/
lemma Enough.mem_of_zero (h : registry.Enough 0 active) (hc : registry.Has config) :
    config.name ∈ active := by
  refine Decidable.byContradiction fun hmem => ?_
  -- there would be more active configs than configs
  have hnodup : (config.name :: active).Nodup := List.nodup_cons.mpr ⟨hmem, h.nodup⟩
  have hsubset : config.name :: active ⊆ registry.configs.names :=
    List.cons_subset.mpr ⟨hc.mem_names, h.subset⟩
  have hlength := hnodup.length_le_of_subset hsubset
  have hsize := h.size_le
  rw [NameMap.length_names, List.length_cons] at hlength
  omega

lemma Enough.step (h : registry.Enough (depth + 1) active) (hc : registry.Has config)
    (hmem : config.name ∉ active) : registry.Enough depth (config.name :: active) where
  nodup := List.nodup_cons.mpr ⟨hmem, h.nodup⟩
  subset := List.cons_subset.mpr ⟨hc.mem_names, h.subset⟩
  size_le := by
    have hsize := h.size_le
    rw [List.length_cons]
    omega

/-- In a registry the bound on the depth is never reached: any more depth gives the same. -/
theorem resolveAnew_succ_eq (hn : registry.Named) (h : registry.Enough depth active)
    (hc : registry.Has config) :
    registry.resolveAnew (depth + 1) active config = registry.resolveAnew depth active config := by
  induction depth generalizing active config with
  | zero =>
    have hmem := h.mem_of_zero hc
    rw [resolveAnew_of_mem _ hmem, resolveAnew_of_mem _ hmem]
  | succ depth ih =>
    by_cases hmem : config.name ∈ active
    · rw [resolveAnew_of_mem _ hmem, resolveAnew_of_mem _ hmem]
    · rw [resolveAnew_succ _ hmem, resolveAnew_succ _ hmem]
      refine Plan.run_congr (registry.plan_all_edge config) fun other hedge => ?_
      exact ih (h.step hc hmem) (hedge.has hn)

lemma resolveAnew_add_eq (hn : registry.Named) (h : registry.Enough depth active)
    (hc : registry.Has config) (more : Nat) :
    registry.resolveAnew (depth + more) active config =
      registry.resolveAnew depth active config := by
  induction more with
  | zero => rfl
  | succ more ih =>
    have hmore : registry.Enough (depth + more) active :=
      ⟨h.nodup, h.subset, Nat.le_trans h.size_le (by omega)⟩
    rw [← ih, ← resolveAnew_succ_eq hn hmore hc]
    rfl

/-- At a depth that suffices, a resolution is found below the configs that wait for it. -/
lemma Resolves.resolveAnew_eq (h : registry.Resolves config resolved) (hn : registry.Named)
    (hc : registry.Has config) (henough : registry.Enough depth active)
    (hw : registry.Awaits active config) :
    registry.resolveAnew depth active config = .ok resolved := by
  obtain ⟨found, h⟩ := h
  have hbelow := resolveAnew_of_awaits hn hc hw h
  rw [← resolveAnew_add_eq hn henough hc found]
  exact resolveAnew_mono hbelow (by omega) (List.Subset.refl _)

lemma resolves_iff (hn : registry.Named) (hc : registry.Has config) :
    registry.Resolves config resolved ↔ registry.anew config = .ok resolved := by
  constructor
  · intro h
    exact h.resolveAnew_eq hn hc (enough_nil (Nat.le_refl _)) (awaits_nil config)
  · intro h
    exact ⟨_, h⟩

end Registry

end ReleaseFlags
