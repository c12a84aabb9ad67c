import Mathlib.Logic.Relation
import ReleaseFlags.Proofs.NameMap
import ReleaseFlags.Proofs.Resolution.Plan
import ReleaseFlags.Proofs.Words

/-!
# The graph of inherited configs

Which configs a config may inherit: its parents, whatever the flags are, and for a release
also the build variant config.  Resolving a config asks for nothing else (`plan_all_edge`).
-/

namespace ReleaseFlags

namespace Registry

variable {registry : Registry} {config other : ReleaseConfig}

/-! ### The configs of a registry -/

/-- Every release config is stored under its own name. -/
def Named (registry : Registry) : Prop :=
  ∀ name config, registry.configs.get? name = some config → config.name = name

/-- The config is stored in the registry under its own name. -/
def Has (registry : Registry) (config : ReleaseConfig) : Prop :=
  registry.configs.get? config.name = some config

lemma Has.eq_of_name (h : registry.Has config) (h' : registry.Has other)
    (hname : config.name = other.name) : config = other := by
  have hget : registry.configs.get? config.name = some other := hname ▸ h'
  exact Option.some.inj (h.symm.trans hget)

lemma Has.mem_names (h : registry.Has config) : config.name ∈ registry.configs.names :=
  NameMap.mem_names.mpr ⟨config, h⟩

lemma has_of_get? (hn : registry.Named) {name : String}
    (h : registry.configs.get? name = some config) : registry.Has config := by
  rw [Has, hn name config h, h]

lemma mem_values_configs (hn : registry.Named) :
    config ∈ registry.configs.values ↔ registry.Has config := by
  rw [NameMap.mem_values]
  constructor
  · rintro ⟨key, hkey⟩
    exact has_of_get? hn hkey
  · exact fun hc => ⟨config.name, hc⟩

lemma exists_get?_of_lookup {name : String} {allowMissing : Bool}
    (h : registry.lookup name allowMissing = .ok config) :
    ∃ key, registry.configs.get? key = some config := by
  simp only [lookup] at h
  split at h
  · cases h
  · split at h
    · next found hfound =>
      cases h
      exact ⟨_, hfound⟩
    · split at h
      · next found hfound =>
        cases h
        split at hfound
        · exact ⟨fallbackName, hfound⟩
        · cases hfound
      · cases h

lemma has_of_lookup (hn : registry.Named) {name : String} {allowMissing : Bool}
    (h : registry.lookup name allowMissing = .ok config) : registry.Has config := by
  obtain ⟨key, hkey⟩ := exists_get?_of_lookup h
  exact has_of_get? hn hkey

/-- Looking up a name fails because its chain of aliases is a circle, or because nothing is found
at the end of it. -/
lemma lookup_eq_error {name : String} {allowMissing : Bool} {e : Error}
    (h : registry.lookup name allowMissing = .error e) :
    (∃ trace, e = .aliasLoop name trace) ∨ ∃ missing trace, e = .configNotFound missing trace := by
  simp only [lookup] at h
  split at h
  · next trace _ =>
    cases h
    exact .inl ⟨trace, rfl⟩
  · next last trace _ =>
    split at h
    · cases h
    · split at h
      · cases h
      · cases h
        exact .inr ⟨last, trace, rfl⟩

/-! ### Edges -/

/-- The root is a parent of the config, whether its files name it or not. -/
structure ImpliesRoot (registry : Registry) (config : ReleaseConfig) : Prop where
  kind_eq : config.kind = .release
  name_ne : config.name ≠ rootName
  exists_root : ∃ root, registry.configStrict rootName = .ok root

/-- The names of the parents are those that the files of the config name, each once, in the order
in which they are named first; an implied root comes before all of them. -/
lemma parentNames_cases (registry : Registry) (config : ReleaseConfig) :
    (registry.ImpliesRoot config ∧ (registry.parentNames config).head? = some rootName ∧
      ByFirstOccurrence (rootName :: config.inheritNames) (registry.parentNames config)) ∨
    (¬ registry.ImpliesRoot config ∧
      ByFirstOccurrence config.inheritNames (registry.parentNames config)) := by
  have hroot : (registry.configStrict rootName).toOption.isSome ↔
      ∃ root, registry.configStrict rootName = .ok root := by
    cases registry.configStrict rootName <;> simp [Except.toOption]
  rw [parentNames]
  split
  · next himplied =>
    obtain ⟨hkind, hname, hsome⟩ := himplied
    exact .inl ⟨⟨hkind, hname, hroot.mp hsome⟩, rfl, byFirstOccurrence_distinct _⟩
  · next hnot =>
    exact .inr ⟨fun h => hnot ⟨h.kind_eq, h.name_ne, hroot.mpr h.exists_root⟩,
      byFirstOccurrence_distinct _⟩

/-- The other config is an effective parent: what the name of a parent leads to, through
aliases and to the fallback where it stands in for a missing config. -/
def Parent (registry : Registry) (config other : ReleaseConfig) : Prop :=
  ∃ name ∈ registry.parentNames config, registry.config name = .ok other

/-- The other config is the build variant config that the options name, and the config is a
release. -/
def Variant (registry : Registry) (config other : ReleaseConfig) : Prop :=
  config.kind = .release ∧ other.kind = .buildVariant ∧
    ∃ name, registry.options.buildVariant = some name ∧ registry.configStrict name = .ok other

/-- The config may inherit the other one. -/
def Edge (registry : Registry) (config other : ReleaseConfig) : Prop :=
  registry.Parent config other ∨ registry.Variant config other

lemma Edge.has (hn : registry.Named) (h : registry.Edge config other) : registry.Has other := by
  rcases h with ⟨name, -, h⟩ | ⟨-, -, name, -, h⟩
  · exact has_of_lookup hn h
  · exact has_of_lookup hn h

/-- What the name of a parent stands for is what it leads to, but a config tied to a platform
build has no parent by an alias. -/
lemma parentOf_eq_ok {name : String} : registry.parentOf config name = .ok other ↔
    (isBuildPrefix config.name = true → registry.aliases.get? name = none) ∧
      registry.config name = .ok other := by
  simp only [parentOf, NameMap.contains, Bool.and_eq_true]
  split
  · next hrefused =>
    obtain ⟨hbuild, halias⟩ := hrefused
    simp [hbuild, Option.ne_none_iff_isSome.mpr halias]
  · next hallowed =>
    simp only [not_and, Bool.not_eq_true, Option.isSome_eq_false_iff, Option.isNone_iff_eq_none]
      at hallowed
    exact (and_iff_right hallowed).symm

lemma config_of_parentOf {name : String} (h : registry.parentOf config name = .ok other) :
    registry.config name = .ok other := (parentOf_eq_ok.mp h).2

/-- A config with these flags inherits the build variant config: it is a release, the flag for it
is not empty, and the options name another config, by a name that leads to one of the right
kind. -/
structure Applies (registry : Registry) (config : ReleaseConfig) (flags : Flags)
    (variant : ReleaseConfig) : Prop where
  release : config.kind = .release
  asked : ∃ flag, flags.get? KnownFlag.useVariantFlags = some flag ∧ flag.value.marshal ≠ ""
  chosen : ∃ name, registry.options.buildVariant = some name ∧ name ≠ "" ∧ name ≠ config.name ∧
    registry.configStrict name = .ok variant
  kind : variant.kind = .buildVariant

lemma usesVariant_iff {flags : Flags} : usesVariant config flags = true ↔
    config.kind = .release ∧
      ∃ flag, flags.get? KnownFlag.useVariantFlags = some flag ∧ flag.value.marshal ≠ "" := by
  simp only [usesVariant, Bool.and_eq_true, decide_eq_true_eq]
  refine and_congr_right fun _ => ?_
  cases flags.get? KnownFlag.useVariantFlags with
  | none => simp
  | some flag => simp

lemma variantOf_eq_some_iff : registry.variantOf config = .ok (some other) ↔
    (∃ name, registry.options.buildVariant = some name ∧ name ≠ "" ∧ name ≠ config.name ∧
      registry.configStrict name = .ok other) ∧ other.kind = .buildVariant := by
  simp only [variantOf]
  constructor
  · intro h
    split at h
    · cases h
    · next name hname =>
      split at h
      · cases h
      · next hused =>
        rw [not_or] at hused
        split at h
        · split at h <;> cases h
        · next found hfound =>
          split at h
          · next hkind =>
            cases h
            exact ⟨⟨name, hname, hused.1, hused.2, hfound⟩, hkind⟩
          · split at h <;> cases h
  · rintro ⟨⟨name, hname, hempty, hself, hfound⟩, hkind⟩
    have hused : ¬ (name = "" ∨ name = config.name) := not_or.mpr ⟨hempty, hself⟩
    simp only [hname, if_neg hused, hfound, if_pos hkind]

/-- When the build variant config is inherited. -/
lemma variantFor_eq_some_iff {flags : Flags} :
    registry.variantFor config flags = .ok (some other) ↔
      registry.Applies config flags other := by
  simp only [variantFor]
  constructor
  · intro h
    split at h
    · next huses =>
      obtain ⟨hrelease, hasked⟩ := usesVariant_iff.mp huses
      obtain ⟨hchosen, hkind⟩ := variantOf_eq_some_iff.mp h
      exact ⟨hrelease, hasked, hchosen, hkind⟩
    · cases h
  · intro h
    rw [if_pos (usesVariant_iff.mpr ⟨h.release, h.asked⟩)]
    exact variantOf_eq_some_iff.mpr ⟨h.chosen, h.kind⟩

lemma Applies.variant {flags : Flags} (h : registry.Applies config flags other) :
    registry.Variant config other := by
  obtain ⟨name, hname, -, -, hfound⟩ := h.chosen
  exact ⟨h.release, h.kind, name, hname, hfound⟩

/-- Resolving a config asks for nothing but the configs that it may inherit. -/
theorem plan_all_edge (registry : Registry) (config : ReleaseConfig) :
    (registry.plan config).All (registry.Edge config) := by
  refine Plan.all_bind (Plan.all_foldlM _ fun working name hname => ?_) fun working => ?_
  · -- one parent: nothing is asked for unless its name leads to a config
    cases hparent : registry.parentOf config name with
    | error e =>
      simp only [inheritParent, hparent]
      trivial
    | ok parent =>
      simp only [inheritParent, hparent]
      have hedge : registry.Edge config parent := .inl ⟨name, hname, config_of_parentOf hparent⟩
      exact ⟨hedge, fun resolved => Plan.all_bind trivial fun _ => trivial⟩
  · refine Plan.all_bind trivial fun working => Plan.all_bind ?_ fun _ => trivial
    cases hvariant : registry.variantFor config working.flags with
    | error e =>
      simp only [inheritVariant, hvariant]
      trivial
    | ok found =>
      simp only [inheritVariant, hvariant]
      cases found with
      | none => trivial
      | some variant =>
        have hedge : registry.Edge config variant :=
          .inr ((variantFor_eq_some_iff.mp hvariant).variant)
        exact ⟨hedge, fun resolved => trivial⟩

end Registry

end ReleaseFlags
