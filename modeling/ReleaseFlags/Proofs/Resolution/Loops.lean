import ReleaseFlags.Proofs.Registry.Aliases
import ReleaseFlags.Proofs.Resolution.Merges

/-!
# Loops of inheritance

The walk ends: at most as many configs as there are can be active at one time, so any bound on
the depth that allows for them gives the same walk (`resolve_eq_resolveIn`).  A walk that
succeeds has met no config below itself (`not_transGen_of_resolves`).  A walk that reports a
loop has followed edges from the start to an active config and round to it again: the active
configs are a path in the graph (`Trail`), and nothing else reports loops.
-/

namespace ReleaseFlags

namespace Registry

open Relation

variable {registry : Registry} {config other start : ReleaseConfig} {resolved : Resolved}
  {depth : Nat} {active : List String} {name : String}

/-! ### The walk ends -/

/-- With a cache too, the bound on the depth is never reached. -/
lemma resolve_succ_eq (hn : registry.Named) (h : registry.Enough depth active)
    (hc : registry.Has config) :
    registry.resolve (depth + 1) active config = registry.resolve depth active config := by
  induction depth generalizing active config with
  | zero =>
    funext cache
    have hmem := h.mem_of_zero hc
    have hrun := registry.resolve_run 1 active config cache
    have hrun₀ := registry.resolve_run 0 active config cache
    simp only [if_pos hmem] at hrun hrun₀
    exact hrun.trans hrun₀.symm
  | succ depth ih =>
    funext cache
    have hrun := registry.resolve_run (depth + 2) active config cache
    have hrun₁ := registry.resolve_run (depth + 1) active config cache
    by_cases hmem : config.name ∈ active
    · simp only [if_pos hmem] at hrun hrun₁
      exact hrun.trans hrun₁.symm
    · have hplan :
          (registry.plan config).run (registry.resolve (depth + 1) (config.name :: active)) =
            (registry.plan config).run (registry.resolve depth (config.name :: active)) :=
        Plan.run_congr (registry.plan_all_edge config) fun other hedge =>
          ih (h.step hc hmem) (hedge.has hn)
      simp only [hplan] at hrun
      exact hrun.trans hrun₁.symm

/-- Any bound on the depth that allows for all configs gives the same walk. -/
theorem resolve_eq_resolveIn (hn : registry.Named) (hc : registry.Has config)
    (h : registry.configs.size ≤ depth) :
    registry.resolve depth [] config = registry.resolveIn config := by
  induction h with
  | refl => rfl
  | step h ih =>
    rw [← ih]
    exact resolve_succ_eq hn (enough_nil h) hc

/-! ### Success -/

/-- A config takes more depth than its parents, and theirs. -/
lemma exists_resolveAnew_of_transGen (h : registry.resolveAnew depth [] config = .ok resolved)
    (hpath : TransGen registry.Parent config other) :
    ∃ less < depth, ∃ r, registry.resolveAnew less [] other = .ok r := by
  have hparent {depth : Nat} {config other : ReleaseConfig} {resolved : Resolved}
      (h : registry.resolveAnew depth [] config = .ok resolved)
      (hparent : registry.Parent config other) :
      ∃ less < depth, ∃ r, registry.resolveAnew less [] other = .ok r := by
    obtain ⟨-, less, rfl, hrun⟩ := resolveAnew_succ_eq_ok h
    rw [← compile_eq_run] at hrun
    obtain ⟨r, hr⟩ := exists_ok_of_parent hrun hparent
    exact ⟨less, by omega, r, resolveAnew_mono hr (Nat.le_refl _) (List.nil_subset _)⟩
  induction hpath with
  | single hedge => exact hparent h hedge
  | tail _ hedge ih =>
    obtain ⟨less, hless, r, hr⟩ := ih
    obtain ⟨less', hless', r', hr'⟩ := hparent hr hedge
    exact ⟨less', by omega, r', hr'⟩

/-- No config that has a resolution is its own parent, directly or through others. -/
lemma not_transGen_self (h : registry.Resolves config resolved) :
    ¬ TransGen registry.Parent config config := by
  intro hcycle
  obtain ⟨depth, h⟩ := h
  -- once round the cycle the same config is resolved with less depth
  induction depth using Nat.strongRecOn generalizing resolved with
  | _ depth ih =>
    obtain ⟨less, hless, r, hr⟩ := exists_resolveAnew_of_transGen h hcycle
    exact ih less hless hr

/-- Among the parents of a config that has a resolution, and theirs, there is no cycle. -/
theorem not_transGen_of_resolves (h : registry.Resolves config resolved)
    (hpath : ReflTransGen registry.Parent config other) :
    ¬ TransGen registry.Parent other other := by
  obtain ⟨depth, h⟩ := h
  rcases reflTransGen_iff_eq_or_transGen.mp hpath with rfl | hpath
  · exact not_transGen_self ⟨depth, h⟩
  · obtain ⟨less, -, r, hr⟩ := exists_resolveAnew_of_transGen h hpath
    exact not_transGen_self ⟨less, hr⟩

/-! ### Loops -/

/-- The config is reached from the start, and from every active config by at least one edge. -/
structure Trail (registry : Registry) (start : ReleaseConfig) (active : List String)
    (config : ReleaseConfig) : Prop where
  reached : ReflTransGen registry.Edge start config
  from_active : ∀ waiting, registry.Has waiting → waiting.name ∈ active →
    TransGen registry.Edge waiting config

lemma trail_start (start : ReleaseConfig) : registry.Trail start [] start where
  reached := .refl
  from_active := by
    intro waiting _ hmem
    cases hmem

lemma Trail.step (h : registry.Trail start active config) (hc : registry.Has config)
    (hedge : registry.Edge config other) : registry.Trail start (config.name :: active) other where
  reached := h.reached.tail hedge
  from_active := by
    intro waiting hw hmem
    rcases List.mem_cons.mp hmem with hname | hmem
    · obtain rfl := hw.eq_of_name hc hname
      exact .single hedge
    · exact (h.from_active waiting hw hmem).tail hedge

/-- A loop is only reported where there is a cycle. -/
theorem exists_cycle_of_resolveAnew (hn : registry.Named) (henough : registry.Enough depth active)
    (hc : registry.Has config) (htrail : registry.Trail start active config)
    (h : registry.resolveAnew depth active config = .error (.inheritanceLoop name)) :
    ∃ looping, registry.Has looping ∧ looping.name = name ∧
      ReflTransGen registry.Edge start looping ∧ TransGen registry.Edge looping looping := by
  induction depth generalizing active config with
  | zero =>
    have hmem := henough.mem_of_zero hc
    rw [resolveAnew_of_mem 0 hmem] at h
    cases h
    exact ⟨config, hc, rfl, htrail.reached, htrail.from_active config hc hmem⟩
  | succ depth ih =>
    by_cases hmem : config.name ∈ active
    · rw [resolveAnew_of_mem _ hmem] at h
      cases h
      exact ⟨config, hc, rfl, htrail.reached, htrail.from_active config hc hmem⟩
    · rw [resolveAnew_succ depth hmem] at h
      -- compiling reports no loop, so one of the configs that it asks for did
      rcases Plan.run_eq_error (plan_raises registry config) h with he | ⟨other, hasks, hother⟩
      · exact absurd rfl (he name)
      · have hedge := (registry.plan_all_edge config).of_asks hasks
        exact ih (henough.step hc hmem) (hedge.has hn) (htrail.step hc hedge) hother

/-- The walk always ends, whatever may be inherited: looking a name up takes no more steps than
there are aliases, and resolving a config goes no deeper than there are configs.  If it
succeeds, no cycle of parents can be reached from the config.  If it reports a loop, there is a
cycle through the named config, which can be reached, where the edges to the build variant
config count as well; so without such a cycle no loop is reported. -/
theorem loops_exact (h : registry.Reached) (name : String) :
    (∀ steps, registry.aliases.size < steps →
      followAliases registry.aliases steps name [name] = aliasChain registry.aliases name) ∧
    (∀ config depth, registry.configStrict name = .ok config → registry.configs.size ≤ depth →
      registry.resolve depth [] config = registry.resolveIn config) ∧
    (∀ resolved, ((generate name).run registry).1 = .ok resolved →
      ∃ config, registry.configStrict name = .ok config ∧
        ∀ other, ReflTransGen registry.Parent config other →
          ¬ TransGen registry.Parent other other) ∧
    (∀ loop, ((generate name).run registry).1 = .error (.inheritanceLoop loop) →
      ∃ config looping, registry.configStrict name = .ok config ∧ registry.Has looping ∧
        looping.name = loop ∧ ReflTransGen registry.Edge config looping ∧
        TransGen registry.Edge looping looping) ∧
    (∀ config, registry.configStrict name = .ok config →
      (∀ other, ReflTransGen registry.Edge config other → ¬ TransGen registry.Edge other other) →
        ∀ loop, ((generate name).run registry).1 ≠ .error (.inheritanceLoop loop)) := by
  have hcoherent := h.coherent
  have hn := hcoherent.named
  have hloop (loop : String)
      (hrun : ((generate name).run registry).1 = .error (.inheritanceLoop loop)) :
      ∃ config looping, registry.configStrict name = .ok config ∧ registry.Has looping ∧
        looping.name = loop ∧ ReflTransGen registry.Edge config looping ∧
        TransGen registry.Edge looping looping := by
    rw [hcoherent.generate_eq] at hrun
    rcases bind_eq_error.mp hrun with hrun | ⟨config, hconfig, hrun⟩
    · exact absurd rfl (raises_lookup _ _ _ _ hrun loop)
    · obtain ⟨looping, hlooping⟩ := exists_cycle_of_resolveAnew hn (enough_nil (Nat.le_refl _))
        (has_of_lookup hn hconfig) (trail_start config) hrun
      exact ⟨config, looping, hconfig, hlooping⟩
  refine ⟨fun steps hsteps => followAliases_eq hsteps name, ?_, ?_, hloop, ?_⟩
  · intro config depth hconfig hdepth
    exact resolve_eq_resolveIn hn (has_of_lookup hn hconfig) hdepth
  · intro resolved hrun
    rw [hcoherent.generate_eq] at hrun
    obtain ⟨config, hconfig, hrun⟩ := bind_eq_ok.mp hrun
    exact ⟨config, hconfig, fun other => not_transGen_of_resolves ⟨_, hrun⟩⟩
  · intro config hconfig hacyclic loop hrun
    obtain ⟨config', looping, hconfig', -, -, hpath, hcycle⟩ := hloop loop hrun
    obtain rfl : config = config' := Except.ok.inj (hconfig.symm.trans hconfig')
    exact hacyclic looping hpath hcycle

end Registry

/-- A config directory where `a` inherits `b`, by an alias, and `b` inherits `a`. -/
def Source.circular : Source where
  tree := {
    nodes := ⟨[
      ("/d", .directory),
      ("/d/release_config_map.toml", .file (some "[[aliases]]\nname='n'\ntarget='b'")),
      ("/d/release_configs", .directory),
      ("/d/release_configs/a.toml", .file (some "name='a'\ninherits=['n']")),
      ("/d/release_configs/b.toml", .file (some "name='b'\ninherits=['a']"))], by
        unfold Increasing
        decide +kernel⟩
    workingDirectory := "" }
  root := ⟨""⟩

namespace Registry

open Relation

/-- A config with a parent is below no loop, and where two configs inherit each other, a loop of
them is reported. -/
theorem loops_exact_circular :
    (layered.Reached ∧ ∃ config parent, layered.configStrict "a" = .ok config ∧
      layered.Parent config parent ∧
      ∀ other, ReflTransGen layered.Parent config other → ¬ TransGen layered.Parent other other) ∧
    ∃ registry config looping, registry.Reached ∧ registry.configStrict "a" = .ok config ∧
      ((generate "a").run registry).1 = .error (.inheritanceLoop "a") ∧ registry.Has looping ∧
      looping.name = "a" ∧ ReflTransGen registry.Edge config looping ∧
      TransGen registry.Edge looping looping := by
  constructor
  · obtain ⟨config, parent, resolved, hconfig, hparent, hrun, -⟩ := layered_shows
    obtain ⟨config', hconfig', hacyclic⟩ := (loops_exact layered_reached "a").2.2.1 resolved hrun
    obtain rfl := Except.ok.inj (hconfig.symm.trans hconfig')
    exact ⟨layered_reached, config, parent, hconfig, hparent, hacyclic⟩
  · have hloops : ((Source.circular.scan ["d"]).toOption.any fun scanned =>
        failsWith "a" (.inheritanceLoop "a")
          ({ scanned with allowMissing := false }.setOptions .default)) = true := by
      decide +kernel
    obtain ⟨scanned, hscan, hfails⟩ := exists_of_toOption hloops
    have hrun := eq_of_failsWith hfails
    have hreached : ({ scanned with allowMissing := false }.setOptions .default).Reached :=
      ⟨Source.circular, ["d"], scanned, false, .default, [], hscan, rfl⟩
    obtain ⟨config, looping, hconfig, hhas, hname, hpath, hcycle⟩ :=
      (loops_exact hreached "a").2.2.2.1 "a" hrun
    exact ⟨_, config, looping, hreached, hconfig, hrun, hhas, hname, hpath, hcycle⟩

end Registry

end ReleaseFlags
