import ReleaseFlags.Proofs.Calls
import ReleaseFlags.Proofs.Resolution.Flags

/-!
# What a config merges

A config merges its effective parents and, where it is applied, the build variant config.  Which
of them these are is read off the stages of its compilation (`Stages.merges_iff`).  All that a
resolved config merges, directly or through others, is resolved too (`exists_outcome_of_merges`),
so what holds of a config as soon as it holds of all that it merges holds of every config that
resolves (`induction_merges`).
-/

namespace ReleaseFlags

namespace Registry

open Relation
open Flags (SameDeclarations)

variable {registry : Registry} {config other : ReleaseConfig} {resolved : Resolved}
  {f : ReleaseConfig → Except Error Resolved}

/-! ### Resolving in a registry -/

lemma Coherent.resolves (h : registry.Coherent) (hc : registry.Has config)
    (hr : registry.outcomeOf config = .ok resolved) : registry.Resolves config resolved :=
  ⟨_, (h.outcomeOf_eq hc).symm.trans hr⟩

/-- What a registry gives for a config is what resolving it without a cache gives. -/
lemma Coherent.outcomeOf_of_resolves (h : registry.Coherent) (hc : registry.Has config)
    (hr : registry.Resolves config resolved) : registry.outcomeOf config = .ok resolved :=
  (h.outcomeOf_eq hc).trans ((resolves_iff h.named hc).mp hr)

/-- A resolved config was compiled from what its registry gives for the configs it inherits. -/
lemma Coherent.compile_outcomeOf (h : registry.Coherent) (hc : registry.Has config)
    (hr : registry.outcomeOf config = .ok resolved) :
    registry.compile registry.outcomeOf config = .ok resolved := by
  rw [h.outcomeOf_eq hc] at hr
  obtain ⟨-, less, -, hrun⟩ := resolveAnew_succ_eq_ok hr
  rw [compile_eq_run]
  refine Plan.run_ok_of_asks hrun fun other r hasks hother => ?_
  have hhas : registry.Has other := ((registry.plan_all_edge config).of_asks hasks).has h.named
  exact h.outcomeOf_of_resolves hhas (.of_ok hother)

/-- The stages that a resolved config went through. -/
lemma Coherent.stages (h : registry.Coherent) (hc : registry.Has config)
    (hr : registry.outcomeOf config = .ok resolved) :
    Nonempty (registry.Stages registry.outcomeOf config resolved) :=
  stages_of_compile (h.compile_outcomeOf hc hr)

lemma Resolves.exists_stages (h : registry.Resolves config resolved) :
    ∃ f : ReleaseConfig → Except Error Resolved, Nonempty (registry.Stages f config resolved) := by
  obtain ⟨f, -, hcompile⟩ := h.exists_compile
  exact ⟨f, stages_of_compile hcompile⟩

/-- The flags of a resolved config come from the declared ones. -/
lemma Resolves.becomes (h : registry.Resolves config resolved) :
    registry.flags.Becomes resolved.flags := by
  obtain ⟨f, ⟨s⟩⟩ := h.exists_stages
  exact s.becomes

lemma Resolves.sameDeclarations (h : registry.Resolves config resolved) :
    SameDeclarations registry.flags resolved.flags := h.becomes.sameDeclarations

/-- The reports of a resolved config are those of its flags. -/
lemma Resolves.report_flags (h : registry.Resolves config resolved) :
    resolved.report.flags = resolved.flags.values.map FlagState.report := by
  obtain ⟨f, ⟨s⟩⟩ := h.exists_stages
  exact (freeze_eq_ok s.resolved_eq).2.2.1

lemma generate_fst {target : String} (h : registry.configStrict target = .ok config) :
    ((generate target).run registry).1 = registry.outcomeOf config := by
  rw [generate_run, h]

lemma exists_configStrict_of_generate {target : String}
    (hr : ((generate target).run registry).1 = .ok resolved) :
    ∃ config, registry.configStrict target = .ok config := by
  rw [generate_run] at hr
  cases htarget : registry.configStrict target with
  | ok config => exact ⟨config, rfl⟩
  | error e =>
    rw [htarget] at hr
    cases hr

/-- What a name or alias resolves to is what its config resolves to. -/
lemma Coherent.exists_of_generate (h : registry.Coherent) {target : String}
    (hr : ((generate target).run registry).1 = .ok resolved) :
    ∃ config, registry.configStrict target = .ok config ∧ registry.Has config ∧
      registry.outcomeOf config = .ok resolved := by
  obtain ⟨config, hconfig⟩ := exists_configStrict_of_generate hr
  exact ⟨config, hconfig, has_of_lookup h.named hconfig, (generate_fst hconfig).symm.trans hr⟩

/-! ### What is merged -/

/-- The build variant config is applied to the config: the flags, when the parents are merged and
the own settings are applied, ask for it. -/
def AppliesVariant (registry : Registry) (config variant : ReleaseConfig) : Prop :=
  ∃ own, registry.ownState registry.outcomeOf config = .ok own ∧
    registry.Applies config own.flags variant

/-- The other config is merged into the config: it is an effective parent, or the build variant
config and applied. -/
def Merges (registry : Registry) (config other : ReleaseConfig) : Prop :=
  registry.Parent config other ∨ registry.AppliesVariant config other

lemma Merges.has (hn : registry.Named) (h : registry.Merges config other) :
    registry.Has other := by
  rcases h with hparent | ⟨own, -, happlies⟩
  · exact Edge.has hn (.inl hparent)
  · exact Edge.has hn (.inr happlies.variant)

namespace Stages

variable (s : registry.Stages registry.outcomeOf config resolved)

lemma appliesVariant_iff :
    registry.AppliesVariant config other ↔ registry.Applies config s.own.flags other := by
  constructor
  · rintro ⟨own, hown, happlies⟩
    obtain rfl : s.own = own := Except.ok.inj (s.ownState_eq.symm.trans hown)
    exact happlies
  · intro happlies
    exact ⟨s.own, s.ownState_eq, happlies⟩

/-- What is merged is what the stages show. -/
lemma merges_iff :
    registry.Merges config other ↔ ∃ inherited, (other, inherited) ∈ s.inherited := by
  rw [Merges, s.appliesVariant_iff, ← s.exists_mem_parents_iff, ← s.exists_eq_applied_iff,
    ← exists_or]
  simp only [inherited, List.mem_append, Option.mem_toList]

lemma merges_of_mem {e : ReleaseConfig × Resolved} (he : e ∈ s.inherited) :
    registry.Merges config e.1 := s.merges_iff.mpr ⟨e.2, he⟩

end Stages

/-- The flags of what a config merges are stored under their names. -/
lemma Reached.named_of_mem (h : registry.Reached)
    (s : registry.Stages registry.outcomeOf config resolved) {e : ReleaseConfig × Resolved}
    (he : e ∈ s.inherited) : e.2.flags.Named := by
  have hresolves := h.coherent.resolves (s.has_of_mem h.coherent.named he) (s.ok_of_mem he)
  exact hresolves.sameDeclarations.named fun _ _ => h.flags_named

/-- What holds of a config as soon as it holds of all that it merges holds of every config that
resolves. -/
theorem Coherent.induction_merges {P : ReleaseConfig → Resolved → Prop} (h : registry.Coherent)
    (step : ∀ config resolved, registry.Has config →
      ∀ s : registry.Stages registry.outcomeOf config resolved,
        (∀ e ∈ s.inherited, P e.1 e.2) → P config resolved)
    (hc : registry.Has config) (hr : registry.outcomeOf config = .ok resolved) :
    P config resolved := by
  refine (h.resolves hc hr).induction (P := fun config resolved => registry.Has config →
    P config resolved) (fun f config resolved hf hcompile hc => ?_) hc
  -- `f` says of other configs what the registry gives for them, so the stages are the same
  obtain ⟨s⟩ := stages_of_compile hcompile
  have hsame : ∀ other r, registry.Has other → f other = .ok r → registry.outcomeOf other = .ok r :=
    fun other r hother hok => h.outcomeOf_of_resolves hother (hf other r hok).1
  refine step config resolved hc (s.mono h.named hsame) fun e he => ?_
  exact (hf e.1 e.2 (s.ok_of_mem he)).2 (s.has_of_mem h.named he)

/-- What a resolved config has if it has it of its own, or merges a config that has it, it has
exactly if one of all the configs that it merges, directly or through others, has it of its own. -/
theorem Coherent.exists_merges_iff {P : Resolved → Prop} {Q : ReleaseConfig → Prop}
    (h : registry.Coherent)
    (step : ∀ config resolved, registry.Has config →
      ∀ s : registry.Stages registry.outcomeOf config resolved,
        P resolved ↔ Q config ∨ ∃ e ∈ s.inherited, P e.2)
    (hc : registry.Has config) (hr : registry.outcomeOf config = .ok resolved) :
    P resolved ↔ ∃ other, ReflTransGen registry.Merges config other ∧ Q other := by
  refine h.induction_merges (P := fun config resolved => P resolved ↔
    ∃ other, ReflTransGen registry.Merges config other ∧ Q other)
    (fun config resolved hc s ih => ?_) hc hr
  rw [step config resolved hc s]
  constructor
  · rintro (hown | ⟨e, he, hhas⟩)
    · exact ⟨config, .refl, hown⟩
    · obtain ⟨other, hmerges, hown⟩ := (ih e he).mp hhas
      exact ⟨other, .head (s.merges_of_mem he) hmerges, hown⟩
  · rintro ⟨other, hmerges, hown⟩
    rcases ReflTransGen.cases_head hmerges with rfl | ⟨between, hfirst, hrest⟩
    · exact .inl hown
    · obtain ⟨inherited, he⟩ := s.merges_iff.mp hfirst
      exact .inr ⟨_, he, (ih _ he).mpr ⟨other, hrest, hown⟩⟩

/-- All that a resolved config merges, directly or through others, is resolved. -/
theorem Coherent.exists_outcome_of_merges (h : registry.Coherent) (hc : registry.Has config)
    (hr : registry.outcomeOf config = .ok resolved)
    (hmerges : ReflTransGen registry.Merges config other) :
    registry.Has other ∧ ∃ r, registry.outcomeOf other = .ok r := by
  induction hmerges with
  | refl => exact ⟨hc, resolved, hr⟩
  | tail _ hstep ih =>
    obtain ⟨hhas, r, hr⟩ := ih
    obtain ⟨s⟩ := h.stages hhas hr
    obtain ⟨inherited, he⟩ := s.merges_iff.mp hstep
    exact ⟨s.has_of_mem h.named he, inherited, s.ok_of_mem he⟩

/-! ### A sample -/

end Registry

/-- A config directory with a config `a` that inherits `p`, and `p` asks for the build variant
config `v`.  All three have value sets. -/
def FileTree.layered : FileTree where
  nodes := ⟨[
    ("/d", .directory),
    ("/d/flag_declarations", .directory),
    ("/d/flag_declarations/U.toml",
      .file (some "name='RELEASE_BUILD_USE_VARIANT_FLAGS'\nnamespace=''\nworkflow='MANUAL'")),
    ("/d/flag_values", .directory),
    ("/d/flag_values/p", .directory),
    ("/d/flag_values/p/RELEASE_BUILD_USE_VARIANT_FLAGS.toml",
      .file (some "name='RELEASE_BUILD_USE_VARIANT_FLAGS'\nvalue=\x7bstring_value='y'\x7d")),
    ("/d/release_config_map.toml", .file (some "")),
    ("/d/release_configs", .directory),
    ("/d/release_configs/a.toml",
      .file (some "name='a'\ninherits=['p']\naconfig_value_sets=['x y']")),
    ("/d/release_configs/p.toml", .file (some "name='p'\naconfig_value_sets=['y']")),
    ("/d/release_configs/v.toml",
      .file (some "name='v'\nrelease_config_type='BUILD_VARIANT'\naconfig_value_sets=['z']"))], by
        unfold Increasing
        decide +kernel⟩
  workingDirectory := ""

def Source.layered : Source := ⟨FileTree.layered, ⟨""⟩⟩

namespace Registry

/-- The options that name the build variant config of the layers. -/
def layeredOptions : Options := { Options.default with buildVariant := some "v" }

/-- The layers, as a scan reads them. -/
def layers : Registry := (Source.layered.scan ["d"]).toOption.getD empty

/-- The layers, ready to be used. -/
def layered : Registry := { layers with allowMissing := false }.setOptions layeredOptions

/-- In what a scan gives, `a` inherits `p` and gets the value sets of all layers, for which no
value is given. -/
def showsLayers (scan : Except Error Registry) : Bool :=
  match scan with
  | .error _ => false
  | .ok scanned =>
    match ((generate "a").run
      ({ scanned with allowMissing := false }.setOptions layeredOptions)).1 with
    | .error _ => false
    | .ok resolved =>
      resolved.report.inherits = ["p"] && resolved.report.aconfigValueSets = ["y", "z", "x"] &&
        scanned.configs.values.all fun config =>
          config.ownValues.all fun value => value.name ≠ KnownFlag.aconfigValueSets

lemma exists_of_showsLayers {scan : Except Error Registry} (h : showsLayers scan = true) :
    ∃ scanned resolved, scan = .ok scanned ∧
      ((generate "a").run ({ scanned with allowMissing := false }.setOptions layeredOptions)).1 =
        .ok resolved ∧
      resolved.report.inherits = ["p"] ∧ resolved.report.aconfigValueSets = ["y", "z", "x"] ∧
      ∀ config ∈ scanned.configs.values,
        ∀ value ∈ config.ownValues, value.name ≠ KnownFlag.aconfigValueSets := by
  unfold showsLayers at h
  split at h
  · cases h
  · next scanned =>
    split at h
    · cases h
    · next resolved hresolved =>
      simp only [Bool.and_eq_true, decide_eq_true_eq, List.all_eq_true] at h
      exact ⟨scanned, resolved, rfl, hresolved, h.1.1, h.1.2, h.2⟩

lemma layers_show : ∃ resolved, Source.layered.scan ["d"] = .ok layers ∧
    ((generate "a").run layered).1 = .ok resolved ∧
    resolved.report.inherits = ["p"] ∧ resolved.report.aconfigValueSets = ["y", "z", "x"] ∧
    ∀ config, layered.Has config →
      ∀ value ∈ config.ownValues, value.name ≠ KnownFlag.aconfigValueSets := by
  have hshows : showsLayers (Source.layered.scan ["d"]) = true := by decide +kernel
  obtain ⟨scanned, resolved, hscan, hrun, hinherits, hsets, hother⟩ := exists_of_showsLayers hshows
  have hlayers : layers = scanned := by
    rw [layers, hscan]
    rfl
  refine ⟨resolved, hlayers ▸ hscan, ?_, hinherits, hsets, fun config hhas => ?_⟩
  · rw [layered, hlayers, hrun]
  · rw [Has, layered, hlayers] at hhas
    exact hother config (NameMap.mem_values.mpr ⟨config.name, hhas⟩)

lemma scan_layered : Source.layered.scan ["d"] = .ok layers := by
  obtain ⟨resolved, hscan, -⟩ := layers_show
  exact hscan

lemma layered_reached : layered.Reached :=
  ⟨Source.layered, ["d"], layers, false, layeredOptions, [], scan_layered, rfl⟩

/-- The layers resolve, and `a` has a parent. -/
lemma layered_shows : ∃ config parent resolved, layered.configStrict "a" = .ok config ∧
    layered.Parent config parent ∧ ((generate "a").run layered).1 = .ok resolved ∧
    resolved.report.aconfigValueSets = ["y", "z", "x"] ∧
    ∀ other, layered.Has other →
      ∀ value ∈ other.ownValues, value.name ≠ KnownFlag.aconfigValueSets := by
  obtain ⟨resolved, -, hrun, hinherits, hsets, hother⟩ := layers_show
  obtain ⟨config, hconfig, hc, hr⟩ := layered_reached.coherent.exists_of_generate hrun
  obtain ⟨s⟩ := layered_reached.coherent.stages hc hr
  have hname : "p" ∈ layered.parentNames config := by
    rw [← (freeze_eq_ok s.resolved_eq).2.2.2.2, hinherits]
    exact List.mem_singleton_self _
  obtain ⟨e, he, -⟩ := exists_mem_of_mapM s.parents_eq hname
  exact ⟨config, e.1, resolved, hconfig, s.exists_mem_parents_iff.mp ⟨e.2, he⟩, hrun, hsets, hother⟩

end Registry

end ReleaseFlags
