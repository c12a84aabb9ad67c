import ReleaseFlags.Proofs.Resolution.Failures
import ReleaseFlags.Proofs.Resolution.Lockstep
import ReleaseFlags.Proofs.Resolution.Remembered

/-!
# Settings that decide what is an error

Two settings decide whether something that is missing is an error: the policy for build variants,
and whether the fallback may stand in for missing configs.  In both cases the strict registry does
what the lenient one does until it is refused something (`stricter_required`,
`stricter_allowMissing`), so a name has the same result or the same error under both settings, or
the strict walk ends with that one kind of error, which names what a config that is reached lacks.
-/

namespace ReleaseFlags

/-! ### A sample -/

/-- A config directory with a config that inherits a missing one, for which there is a fallback,
and asks for a build variant. -/
def FileTree.incomplete : FileTree where
  nodes := ⟨[
    ("/d", .directory),
    ("/d/flag_declarations", .directory),
    ("/d/flag_declarations/U.toml",
      .file (some "name='RELEASE_BUILD_USE_VARIANT_FLAGS'\nnamespace=''")),
    ("/d/flag_values", .directory),
    ("/d/flag_values/a", .directory),
    ("/d/flag_values/a/RELEASE_BUILD_USE_VARIANT_FLAGS.toml",
      .file (some "name='RELEASE_BUILD_USE_VARIANT_FLAGS'\nvalue=\x7bbool_value=true\x7d")),
    ("/d/release_config_map.toml", .file (some "")),
    ("/d/release_configs", .directory),
    ("/d/release_configs/a.toml", .file (some "name='a'\ninherits=['m']")),
    ("/d/release_configs/trunk_staging.toml", .file (some "name='trunk_staging'"))], by
      unfold Increasing
      decide +kernel⟩
  workingDirectory := ""

def Source.incomplete : Source := ⟨FileTree.incomplete, ⟨""⟩⟩

namespace Registry

/-- What resolving `a` gives in what a scan gives, with the options and with the build variant `v`
under a policy. -/
def outcomesOfA (scanned : Registry) (allowMissing : Bool) (policy : VariantPolicy) :
    Except Error Resolved :=
  ((generate "a").run ({ scanned with allowMissing }.setOptions
    { Options.default with buildVariant := some "v", policy })).1

/-- In what a scan gives, only the lenient settings resolve `a`. -/
def isIncomplete (scan : Except Error Registry) : Bool :=
  match scan with
  | .error _ => false
  | .ok scanned =>
    match outcomesOfA scanned true .bestEffort, outcomesOfA scanned true .required,
      outcomesOfA scanned false .bestEffort with
    | .ok _, .error e, .error e' =>
      e = .buildVariantUnavailable "a" "v" "Missing config v. Trace=v" &&
        e' = .configNotFound "m" ["m"]
    | _, _, _ => false

lemma exists_of_isIncomplete {scan : Except Error Registry} (h : isIncomplete scan = true) :
    ∃ scanned resolved, scan = .ok scanned ∧
      outcomesOfA scanned true .bestEffort = .ok resolved ∧
      outcomesOfA scanned true .required =
        .error (.buildVariantUnavailable "a" "v" "Missing config v. Trace=v") ∧
      outcomesOfA scanned false .bestEffort = .error (.configNotFound "m" ["m"]) := by
  unfold isIncomplete at h
  split at h
  · cases h
  · next scanned =>
    split at h
    · next resolved e e' hlenient hrequired hstrict =>
      simp only [Bool.and_eq_true, decide_eq_true_eq] at h
      obtain ⟨rfl, rfl⟩ := h
      exact ⟨scanned, resolved, rfl, hlenient, hrequired, hstrict⟩
    · cases h

lemma incomplete_shows : ∃ scanned resolved, Source.incomplete.scan ["d"] = .ok scanned ∧
    outcomesOfA scanned true .bestEffort = .ok resolved ∧
    outcomesOfA scanned true .required =
      .error (.buildVariantUnavailable "a" "v" "Missing config v. Trace=v") ∧
    outcomesOfA scanned false .bestEffort = .error (.configNotFound "m" ["m"]) := by
  have hshows : isIncomplete (Source.incomplete.scan ["d"]) = true := by decide +kernel
  exact exists_of_isIncomplete hshows

open Relation

variable {registry : Registry} {config : ReleaseConfig} {flags : Flags} {name : String}

/-! ### The policy for build variants -/

/-- The registry under another policy. -/
def withPolicy (registry : Registry) (policy : VariantPolicy) : Registry :=
  { registry with options := { registry.options with policy } }

/-- The config is a release, and the name that the options give leads to no build variant config
that it could inherit, for the reason that is told. -/
structure LacksVariant (registry : Registry) (config : ReleaseConfig) (variant reason : String) :
    Prop where
  release : config.kind = .release
  chosen : registry.options.buildVariant = some variant
  not_empty : variant ≠ ""
  not_self : variant ≠ config.name
  /-- There is no config of the name, or it is one of another kind. -/
  reason_eq : (∃ e, registry.configStrict variant = .error e ∧ reason = e.message) ∨
    ∃ found, registry.configStrict variant = .ok found ∧ found.kind ≠ .buildVariant ∧
      reason = found.name ++ " has type " ++ found.kind.word

/-- What the policy refuses a config: a build variant that it lacks. -/
def RefusesVariant (registry : Registry) (config : ReleaseConfig) (e : Error) : Prop :=
  ∃ variant reason, registry.LacksVariant config variant reason ∧
    e = .buildVariantUnavailable config.name variant reason

lemma agreesUnless_variantFor (registry : Registry) (config : ReleaseConfig) (flags : Flags) :
    AgreesUnless (registry.RefusesVariant config)
      ((registry.withPolicy .required).variantFor config flags)
      ((registry.withPolicy .bestEffort).variantFor config flags) := by
  have hstrict (policy : VariantPolicy) (variant : String) :
      (registry.withPolicy policy).configStrict variant = registry.configStrict variant := rfl
  simp only [variantFor]
  split
  · next huses =>
    have hrelease := (usesVariant_iff.mp huses).1
    simp only [variantOf, hstrict]
    simp only [withPolicy]
    cases hchosen : registry.options.buildVariant with
    | none => exact .refl _
    | some variant =>
      by_cases hunused : variant = "" ∨ variant = config.name
      · simp only [if_pos hunused]
        exact .refl _
      · simp only [if_neg hunused]
        rw [not_or] at hunused
        cases hfound : registry.configStrict variant with
        | error e =>
          have hlacks : registry.LacksVariant config variant e.message :=
            ⟨hrelease, hchosen, hunused.1, hunused.2, .inl ⟨e, hfound, rfl⟩⟩
          exact .inr ⟨_, ⟨variant, _, hlacks, rfl⟩, rfl⟩
        | ok found =>
          by_cases hkind : found.kind = .buildVariant
          · simp only [if_pos hkind]
            exact .refl _
          · simp only [if_neg hkind]
            have hlacks : registry.LacksVariant config variant
                (found.name ++ " has type " ++ found.kind.word) :=
              ⟨hrelease, hchosen, hunused.1, hunused.2, .inr ⟨found, hfound, hkind, rfl⟩⟩
            exact .inr ⟨_, ⟨variant, _, hlacks, rfl⟩, rfl⟩
  · exact .refl _

/-- To require build variants is stricter than to do without them. -/
lemma stricter_required (registry : Registry) : Stricter registry.RefusesVariant
    (registry.withPolicy .required) (registry.withPolicy .bestEffort) where
  configs := rfl
  aliases := rfl
  flags := rfl
  applyOwn := rfl
  freeze _ := rfl
  parentOf _ _ _ := .refl _
  variantFor := registry.agreesUnless_variantFor

/-- That a build variant is unavailable is reported only where it is required. -/
lemma policy_of_unavailable (hnamed : registry.flags.Named) {configName variant reason : String}
    (h : registry.resolution name = .error (.buildVariantUnavailable configName variant reason)) :
    registry.options.policy = .required := by
  have hlookup {key : String} {allowMissing : Bool} (h : registry.lookup key allowMissing =
      .error (.buildVariantUnavailable configName variant reason)) : False := by
    rcases lookup_eq_error h with ⟨_, hloop⟩ | ⟨_, _, hmissing⟩
    · cases hloop
    · cases hmissing
  rcases bind_eq_error.mp h with h | ⟨config, -, h⟩
  · exact (hlookup h).elim
  · rcases resolveAnew_eq_error hnamed h with ⟨_, hloop⟩ | ⟨other, -, hviolation⟩
    · cases hloop
    · cases hviolation with
      | parent _ hparent => exact (hlookup hparent).elim
      | unavailable hpolicy => exact hpolicy

/-- Whether build variants are required changes no result.  With an empty cache a name gives the
same result or the same error under both policies, or the strict policy reports that a config which
is reached lacks the build variant config; the other policy never reports this. -/
theorem generate_of_required {source : Source} {directories : List String} {scanned : Registry}
    (hscan : source.scan directories = .ok scanned) (allowMissing : Bool) (options : Options)
    (name : String) :
    let required := { scanned with allowMissing }.setOptions { options with policy := .required }
    let bestEffort := { scanned with allowMissing }.setOptions
      { options with policy := .bestEffort }
    (((generate name).run required).1 = ((generate name).run bestEffort).1 ∨
      ∃ config other variant reason, required.configStrict name = .ok config ∧
        ReflTransGen required.Edge config other ∧ required.LacksVariant other variant reason ∧
        ((generate name).run required).1 =
          .error (.buildVariantUnavailable other.name variant reason)) ∧
    ∀ configName variant reason, ((generate name).run bestEffort).1 ≠
      .error (.buildVariantUnavailable configName variant reason) := by
  intro required bestEffort
  have hscanned := scanned_of_scan hscan
  have hrequired : required.Coherent := (hscanned.coherent allowMissing).setOptions _
  have hbestEffort : bestEffort.Coherent := (hscanned.coherent allowMissing).setOptions _
  rw [hrequired.generate_eq, hbestEffort.generate_eq]
  constructor
  · have hagree := ({ scanned with allowMissing }.setOptions options).stricter_required.resolution
      name
    rcases hagree with
      hsame | ⟨_, ⟨config, hconfig, other, hpath, variant, reason, hlacks, rfl⟩, he⟩
    · exact .inl hsame
    · exact .inr ⟨config, other, variant, reason, hconfig, hpath, { hlacks with }, he⟩
  · intro configName variant reason h
    have hnamed : bestEffort.flags.Named := hscanned.flags_named
    have hpolicy : VariantPolicy.bestEffort = .required := policy_of_unavailable hnamed h
    cases hpolicy

/-- The policy makes a difference where a build variant is missing. -/
theorem generate_of_required_incomplete : ∃ scanned config other variant reason,
    Source.incomplete.scan ["d"] = .ok scanned ∧
      ReflTransGen (({ scanned with allowMissing := true }.setOptions
        { Options.default with buildVariant := some "v", policy := .required }).Edge) config other ∧
      outcomesOfA scanned true .required =
        .error (.buildVariantUnavailable other.name variant reason) ∧
      outcomesOfA scanned true .bestEffort ≠ outcomesOfA scanned true .required := by
  obtain ⟨scanned, resolved, hscan, hbestEffort, hrequired, -⟩ := incomplete_shows
  have hne : outcomesOfA scanned true .required ≠ outcomesOfA scanned true .bestEffort := by
    rw [hrequired, hbestEffort]
    exact nofun
  rcases (generate_of_required hscan true { Options.default with buildVariant := some "v" } "a").1
    with hsame | ⟨config, other, variant, reason, -, hpath, -, he⟩
  · exact (hne hsame).elim
  · exact ⟨scanned, config, other, variant, reason, hscan, hpath, he, hne.symm⟩

/-! ### Missing configs -/

/-- What a registry refuses that does not allow missing configs: a parent that is missing, although
there is a fallback. -/
def RefusesParent (registry : Registry) (config : ReleaseConfig) (e : Error) : Prop :=
  ∃ parent ∈ registry.parentNames config, ∃ missing trace,
    registry.configStrict parent = .error (.configNotFound missing trace) ∧
      registry.configs.contains fallbackName = true ∧ e = .configNotFound missing trace

lemma agreesUnless_lookup (registry : Registry) (name : String) :
    AgreesUnless (fun e => ∃ missing trace,
        registry.configStrict name = .error (.configNotFound missing trace) ∧
          registry.configs.contains fallbackName = true ∧ e = .configNotFound missing trace)
      (registry.lookup name false) (registry.lookup name true) := by
  simp only [configStrict, lookup, Bool.false_eq_true, if_false, if_true]
  cases aliasChain registry.aliases name with
  | error trace => exact .refl _
  | ok found =>
    obtain ⟨last, trace⟩ := found
    dsimp only
    cases registry.configs.get? last with
    | some config => exact .refl _
    | none =>
      cases hfallback : registry.configs.get? fallbackName with
      | none => exact .refl _
      | some config =>
        have hcontains : registry.configs.contains fallbackName = true := by
          rw [NameMap.contains, hfallback]
          rfl
        exact .inr ⟨_, ⟨last, trace, rfl, hcontains, rfl⟩, rfl⟩

/-- To refuse missing configs is stricter than to allow them. -/
lemma stricter_allowMissing (registry : Registry) : Stricter registry.RefusesParent
    { registry with allowMissing := false } { registry with allowMissing := true } where
  configs := rfl
  aliases := rfl
  flags := rfl
  applyOwn := rfl
  freeze _ := rfl
  parentOf := by
    intro config name hname
    simp only [parentOf]
    split
    · exact .refl _
    · refine (registry.agreesUnless_lookup name).mono ?_
      rintro e ⟨missing, trace, hmissing, hfallback, rfl⟩
      exact ⟨name, hname, missing, trace, hmissing, hfallback, rfl⟩
  variantFor _ _ := .refl _

/-- A cache that was filled while missing configs were refused stays sound when they are allowed. -/
lemma Coherent.allow (h : registry.Coherent) (hstrict : registry.allowMissing = false) :
    { registry with allowMissing := true }.Coherent where
  named := h.named
  unshadowed := h.unshadowed
  sound := by
    intro name resolved hget
    obtain ⟨config, hc, hname, hr⟩ := h.sound name resolved hget
    have hsame : { registry with allowMissing := false } = registry := by rw [← hstrict]
    exact ⟨config, hc, hname, registry.stricter_allowMissing.resolves (hsame.symm ▸ hr)⟩

/-- To allow missing configs changes no result.  With an empty cache a name gives the same result or
the same error, or the strict registry reports a missing parent of a config that is reached, for
which there is a fallback.  So missing configs may be allowed at any time: what is remembered is
what resolving it then would give, and every call replies as with an empty cache. -/
theorem generate_of_allowMissing {source : Source} {directories : List String}
    {scanned : Registry} (hscan : source.scan directories = .ok scanned) (options : Options)
    (name : String) (calls : List Call) :
    let strict := { scanned with allowMissing := false }.setOptions options
    let lenient := { scanned with allowMissing := true }.setOptions options
    let used := { strict.after calls with allowMissing := true }
    (((generate name).run strict).1 = ((generate name).run lenient).1 ∨
      ∃ config other parent missing trace, strict.configStrict name = .ok config ∧
        ReflTransGen strict.Edge config other ∧ parent ∈ strict.parentNames other ∧
        strict.config parent = .error (.configNotFound missing trace) ∧
        strict.configs.contains fallbackName = true ∧
        ((generate name).run strict).1 = .error (.configNotFound missing trace)) ∧
    (∀ key resolved, used.resolved.get? key = some resolved →
      ((generate key).run used.forget).1 = .ok resolved) ∧
    ∀ call : Call, (call.perform.run used).1 = (call.perform.run used.forget).1 := by
  intro strict lenient used
  have hscanned := scanned_of_scan hscan
  have hstrict : strict.Coherent := (hscanned.coherent false).setOptions options
  have hlenient : lenient.Coherent := (hscanned.coherent true).setOptions options
  have hused : used.Coherent := by
    refine (hstrict.after calls).allow ?_
    exact congrArg Registry.allowMissing (hstrict.after_forget calls)
  refine ⟨?_, fun key resolved hget => ?_, hused.perform_forget⟩
  · rw [hstrict.generate_eq, hlenient.generate_eq]
    have hagree := (scanned.setOptions options).stricter_allowMissing.resolution name
    rcases hagree with
      hsame | ⟨_, ⟨config, hconfig, other, hpath, parent, hparent, missing, trace, hmissing,
        hfallback, rfl⟩, he⟩
    · exact .inl hsame
    · exact .inr ⟨config, other, parent, missing, trace, hconfig, hpath, hparent, hmissing,
        hfallback, he⟩
  · obtain ⟨-, -, -, hr⟩ := hused.generate_of_remembered hget
    exact hr

/-- The setting makes a difference where a parent is missing. -/
theorem generate_of_allowMissing_incomplete : ∃ scanned missing trace,
    Source.incomplete.scan ["d"] = .ok scanned ∧
      scanned.configs.contains fallbackName = true ∧
      outcomesOfA scanned false .bestEffort = .error (.configNotFound missing trace) ∧
      outcomesOfA scanned false .bestEffort ≠ outcomesOfA scanned true .bestEffort := by
  obtain ⟨scanned, resolved, hscan, hlenient, -, hstrict⟩ := incomplete_shows
  have hne : outcomesOfA scanned false .bestEffort ≠ outcomesOfA scanned true .bestEffort := by
    rw [hlenient, hstrict]
    exact nofun
  rcases (generate_of_allowMissing hscan { Options.default with buildVariant := some "v" } "a"
    [.generate "a"]).1 with hsame | ⟨-, -, -, missing, trace, -, -, -, -, hfallback, he⟩
  · exact (hne hsame).elim
  · exact ⟨scanned, missing, trace, hscan, hfallback, he, hne⟩

end Registry

end ReleaseFlags
