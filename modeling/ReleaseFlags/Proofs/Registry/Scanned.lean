import ReleaseFlags.Proofs.Registry.Steps
import ReleaseFlags.Proofs.Resolution.Graph

/-!
# What a scan establishes

The invariants of a registry that was read from config directories.  Each step of reading
keeps them, also a step that fails half-way (`loadInvariant_loaded`), and linking the
aliases adds that no alias hides a release config.
-/

namespace ReleaseFlags

/-- The state of a flag that nothing has changed since its declaration. -/
structure FlagState.Declared (flag : FlagState) : Prop where
  traces_eq : ∃ source, flag.traces = [⟨source, flag.value⟩]
  not_redacted : flag.redacted = false

/-- The settings of the config are those of its contributions, and its files are theirs. -/
structure ReleaseConfig.Assembled (config : ReleaseConfig) : Prop where
  flags_only : config.aconfigFlagsOnly = config.contributions.any fun c => c.file.aconfigFlagsOnly
  mem_files : ∀ file, file ∈ config.filesUsed.names ↔
    ∃ c ∈ config.contributions, file = c.path ∨ file ∈ c.values.map Assignment.path

namespace Registry

/-- What holds of a registry while config directories are read. -/
structure Loaded (registry : Registry) : Prop where
  configs_named : registry.Named
  configs_assembled : ∀ name config, registry.configs.get? name = some config → config.Assembled
  value_sets : registry.flags.get? KnownFlag.aconfigValueSets = some valueSetsFlag
  flags_named : ∀ name flag, registry.flags.get? name = some flag → flag.name = name
  flags_declared : ∀ name flag, registry.flags.get? name = some flag → flag.Declared
  nothing_resolved : registry.resolved = NameMap.empty

/-- What holds of a registry that was read from config directories. -/
structure Scanned (registry : Registry) : Prop extends Loaded registry where
  unshadowed : ∀ name config, registry.configs.get? name = some config →
    registry.aliases.get? name = none

variable {registry : Registry}

/-! ### Reading config directories -/

lemma Loaded.put_flag (h : registry.Loaded) {flag : FlagState} (hflag : flag.Declared)
    (hnew : registry.flags.get? flag.name = none) :
    Loaded { registry with flags := registry.flags.put flag } where
  configs_named := h.configs_named
  configs_assembled := h.configs_assembled
  value_sets := by
    rw [Flags.put, NameMap.get?_insert_of_ne _ _ fun hname => ?_, h.value_sets]
    rw [← hname, h.value_sets] at hnew
    cases hnew
  flags_named := by
    intro name found hfound
    rw [Flags.put, NameMap.get?_insert] at hfound
    split at hfound
    · next hname =>
      cases hfound
      exact hname.symm
    · exact h.flags_named name found hfound
  flags_declared := by
    intro name found hfound
    rw [Flags.put, NameMap.get?_insert] at hfound
    split at hfound
    · cases hfound
      exact hflag
    · exact h.flags_declared name found hfound
  nothing_resolved := h.nothing_resolved

lemma Loaded.insert_config (h : registry.Loaded) {name : String} {config : ReleaseConfig}
    (hname : config.name = name) (hassembled : config.Assembled) :
    Loaded { registry with configs := registry.configs.insert name config } where
  configs_assembled := by
    intro other found hfound
    rw [NameMap.get?_insert] at hfound
    split at hfound
    · cases hfound
      exact hassembled
    · exact h.configs_assembled other found hfound
  value_sets := h.value_sets
  configs_named := by
    intro other found hfound
    rw [NameMap.get?_insert] at hfound
    split at hfound
    · next heq =>
      cases hfound
      exact hname.trans heq.symm
    · exact h.configs_named other found hfound
  flags_named := h.flags_named
  flags_declared := h.flags_declared
  nothing_resolved := h.nothing_resolved

lemma declared_declare (declaration : FlagDeclaration) (index : Option Nat) (source : String) :
    (FlagState.declare declaration index source).Declared :=
  ⟨⟨source, rfl⟩, rfl⟩

/-- The registry before anything is read holds the flag of the engine only. -/
lemma loaded_empty : Loaded empty where
  configs_assembled := by
    intro name config h
    cases h
  value_sets := NameMap.get?_insert_self _ _ _
  configs_named := by
    intro name config h
    cases h
  flags_named := by
    intro name flag h
    rw [empty, Flags.put, NameMap.get?_insert] at h
    split at h
    · next hname =>
      cases h
      exact hname.symm
    · cases h
  flags_declared := by
    intro name flag h
    rw [empty, Flags.put, NameMap.get?_insert] at h
    split at h
    · cases h
      exact ⟨⟨engineSource, rfl⟩, rfl⟩
    · cases h
  nothing_resolved := rfl

lemma assembled_new (name : String) (index : Nat) (kind : ReleaseKind) :
    (ReleaseConfig.new name index kind).Assembled :=
  ⟨rfl, fun file => by simp [ReleaseConfig.new, NameMap.names, NameMap.empty]⟩

lemma assembled_contribute {config : ReleaseConfig} (h : config.Assembled) (c : Contribution) :
    (config.contributed c).Assembled where
  flags_only := by
    simp [ReleaseConfig.contributed, ReleaseConfig.addContribution, h.flags_only]
  mem_files := by
    intro file
    simp only [ReleaseConfig.contributed]
    rw [NameSet.mem_addAll, NameSet.mem_add, h.mem_files]
    simp only [ReleaseConfig.addContribution, List.mem_append, List.mem_singleton, or_and_right,
      exists_or, exists_eq_left]
    exact or_comm.trans ((or_congr_left or_comm).trans or_assoc)

/-- The config is a new one or one that was read before, with the name of the file in both cases. -/
lemma Loaded.configFor (h : registry.Loaded) (c : Contribution) :
    (registry.configFor c).name = c.file.name ∧ (registry.configFor c).Assembled := by
  rw [Registry.configFor]
  cases hget : registry.configs.get? c.file.name with
  | none => exact ⟨rfl, assembled_new _ _ _⟩
  | some config => exact ⟨h.configs_named _ config hget, h.configs_assembled _ config hget⟩

/-- Each change of a load keeps the invariants, whether the load succeeds or fails on the way. -/
lemma loadInvariant_loaded : LoadInvariant Loaded fun _ => Loaded where
  aliases _ _ h := { h with }
  directory _ _ _ h _ := { h with }
  files _ _ _ h := { h with }
  declare index _ declaration path h _ hnew :=
    h.put_flag (declared_declare declaration (some index) path) hnew
  contribute _ c h _ _ := by
    obtain ⟨hname, hassembled⟩ := h.configFor c
    exact h.insert_config hname (assembled_contribute hassembled c)
  maps _ _ _ h := { h with }
  stop _ _ h := h

/-! ### Linking aliases -/

/-- What an alias must satisfy to be recorded with its owner, the config that it leads to. -/
lemma aliasOwner_eq_ok {name target owner : String} :
    registry.aliasOwner name target = .ok owner ↔ registry.configs.get? name = none ∧
      (registry.configs.contains target = true ∨ registry.aliases.contains target = true) ∧
      ∃ config, registry.configStrict name = .ok config ∧ config.name = owner := by
  have hfound : (do return (← registry.configStrict name).name : Except Error String) = .ok owner ↔
      ∃ config, registry.configStrict name = .ok config ∧ config.name = owner :=
    bind_eq_ok.trans (exists_congr fun config => and_congr_right fun _ =>
      ⟨Except.ok.inj, congrArg Except.ok⟩)
  have hcontains : registry.configs.contains name = true ↔ ¬ registry.configs.get? name = none := by
    rw [NameMap.contains, Option.isSome_iff_ne_none]
  rw [aliasOwner]
  by_cases hshadows : registry.configs.contains name = true
  · rw [if_pos hshadows]
    refine iff_of_false ?_ fun h => hcontains.mp hshadows h.1
    intro h
    cases h
  by_cases hdangles :
      (!registry.configs.contains target && !registry.aliases.contains target) = true
  · simp only [if_neg hshadows, if_pos hdangles]
    refine iff_of_false ?_ fun h => ?_
    · intro h
      cases h
    · rw [← Bool.not_or, Bool.not_eq_true', ← Bool.not_eq_true, Bool.or_eq_true] at hdangles
      exact hdangles h.2.1
  · simp only [if_neg hshadows, if_neg hdangles]
    rw [← Bool.not_or, Bool.not_eq_true', Bool.not_eq_false, Bool.or_eq_true] at hdangles
    exact hfound.trans
      ⟨fun h => ⟨Decidable.not_not.mp (mt hcontains.mpr hshadows), hdangles, h⟩, fun h => h.2.2⟩

/-- Linking the aliases of a registry that was read gives a registry without hidden configs. -/
lemma Loaded.scanned (h : registry.Loaded) {linked : Registry}
    (hlink : registry.linkAliases = .ok linked) : linked.Scanned := by
  obtain ⟨owners, howners, hlink⟩ := bind_eq_ok.mp hlink
  cases hlink
  -- linking changes nothing but the other names of the configs
  have hconfig (name : String) (config : ReleaseConfig) (hget : (registry.configs.mapEntries
      fun _ config => { config with
        otherNames := (owners.filter fun owner => owner.2 = config.name).map Prod.fst }).get? name =
          some config) : ∃ old, registry.configs.get? name = some old ∧ old.name = config.name ∧
            (old.Assembled → config.Assembled) := by
    rw [NameMap.get?_mapEntries, Option.map_eq_some_iff] at hget
    obtain ⟨old, hold, rfl⟩ := hget
    exact ⟨old, hold, rfl, fun hassembled => ⟨hassembled.flags_only, hassembled.mem_files⟩⟩
  refine ⟨{ h with configs_named := ?_, configs_assembled := ?_ }, ?_⟩
  · intro name config hget
    obtain ⟨old, hold, hname, -⟩ := hconfig name config hget
    exact hname.symm.trans (h.configs_named name old hold)
  · intro name config hget
    obtain ⟨old, hold, -, hassembled⟩ := hconfig name config hget
    exact hassembled (h.configs_assembled name old hold)
  · intro name config hget
    obtain ⟨old, hold, -⟩ := hconfig name config hget
    cases halias : registry.aliases.get? name with
    | none => rfl
    | some target =>
      obtain ⟨_, -, howner⟩ := exists_mem_of_mapM howners (NameMap.mem_entries.mpr halias)
      obtain ⟨owner, howner, -⟩ := bind_eq_ok.mp howner
      rw [(aliasOwner_eq_ok.mp howner).1] at hold
      cases hold

/-- A scan that succeeds gives a registry with these invariants. -/
theorem scanned_of_scan {source : Source} {directories : List String}
    (h : source.scan directories = .ok registry) : registry.Scanned := by
  obtain ⟨loaded, hrun, hlink⟩ := Source.exists_run_of_scan h
  exact (loadInvariant_loaded.of_run loaded_empty hrun).scanned hlink

end Registry

end ReleaseFlags
