import ReleaseFlags.Proofs.Registry.Scanned
import ReleaseFlags.Proofs.Words

/-!
# Registries between loads

A registry that config directories were read into, in any number and from any trees, is well formed
(`wellFormed_of_loads`), whichever of the loads succeeded: a load that stops with an error leaves
what it had done until then, and every single change keeps the rules.

The rules about indices speak of the number of directories, which a load raises once.  Up to that
point only the aliases change; behind it the index of the load is the greatest one (`Current`), so
that a contribution of this index belongs behind all others.
-/

namespace ReleaseFlags

/-- The flag is as a valid declaration in one of the first directories left it. -/
structure FlagState.DeclaredBelow (bound : Nat) (flag : FlagState) : Prop where
  valid : flag.declaration.Valid
  value_eq : flag.value = flag.declaration.value
  index_lt : ∃ index < bound, flag.declarationIndex = some index

/-- The config is made of contributions of the first directories, in the order of these. -/
structure ReleaseConfig.AssembledBelow (bound : Nat) (config : ReleaseConfig) : Prop where
  kind_ne : config.kind ≠ .unspecified
  /-- There is a first contribution, whose index is that of the config. -/
  index_eq : ∃ first rest, config.contributions = first :: rest ∧ config.index = first.index
  indices_increase : config.contributions.Pairwise fun c later => c.index < later.index
  indices_lt : ∀ c ∈ config.contributions, c.index < bound
  inherits_eq : config.inheritNames =
    distinct (config.contributions.flatMap fun c => c.file.inherits)
  disallow_eq : config.disallowLunchUse =
    config.contributions.any fun c => c.file.disallowLunchUse

lemma FlagState.DeclaredBelow.mono {bound more : Nat} {flag : FlagState}
    (h : flag.DeclaredBelow bound) (hle : bound ≤ more) : flag.DeclaredBelow more where
  valid := h.valid
  value_eq := h.value_eq
  index_lt := by
    obtain ⟨index, hindex, heq⟩ := h.index_lt
    exact ⟨index, Nat.lt_of_lt_of_le hindex hle, heq⟩

lemma ReleaseConfig.AssembledBelow.mono {bound more : Nat} {config : ReleaseConfig}
    (h : config.AssembledBelow bound) (hle : bound ≤ more) : config.AssembledBelow more :=
  { h with indices_lt := fun c hc => Nat.lt_of_lt_of_le (h.indices_lt c hc) hle }

namespace Registry

/-- The indices of flags and contributions are places in the list of directories. -/
structure Indexed (registry : Registry) : Prop where
  directories_nodup : registry.directories.Nodup
  flags_below : ∀ name flag, registry.flags.get? name = some flag →
    name ≠ KnownFlag.aconfigValueSets → flag.DeclaredBelow registry.directories.length
  configs_below : ∀ name config, registry.configs.get? name = some config →
    config.AssembledBelow registry.directories.length

/-- What holds of a registry between loads.  The flags and configs are stored under their names, the
flags of the engine and of the declarations are untouched, and the settings and files of a config
are those of its contributions (`Loaded`); and indices are in order (`Indexed`). -/
structure WellFormed (registry : Registry) : Prop extends Loaded registry, Indexed registry

/-- The directory of the index is the last one that was reached. -/
structure Current (index : Nat) (registry : Registry) : Prop extends Indexed registry where
  length_eq : registry.directories.length = index + 1

variable {registry : Registry} {index : Nat}

/-! ### Single changes -/

lemma declaredBelow_declare {declaration : FlagDeclaration} (h : declaration.Valid)
    (path : String) :
    (FlagState.declare declaration (some index) path).DeclaredBelow (index + 1) where
  valid := h
  value_eq := rfl
  index_lt := ⟨index, Nat.lt_succ_self index, rfl⟩

lemma declaredKind_ne (file : ReleaseFile) : Source.declaredKind file ≠ .unspecified := by
  unfold Source.declaredKind
  split
  · exact ReleaseKind.noConfusion
  · exact ReleaseKind.noConfusion
  · next kind _ hne =>
    intro heq
    subst heq
    simp_all

/-- The first contribution of a config. -/
lemma assembledBelow_new (c : Contribution) :
    ((ReleaseConfig.new c.file.name c.index (Source.declaredKind c.file)).contributed
      c).AssembledBelow (c.index + 1) where
  kind_ne := declaredKind_ne c.file
  index_eq := ⟨c, [], rfl, rfl⟩
  indices_increase := List.pairwise_singleton _ c
  indices_lt := by
    intro other hother
    obtain rfl := List.mem_singleton.mp hother
    exact Nat.lt_succ_self _
  inherits_eq := by
    simp [ReleaseConfig.contributed, ReleaseConfig.addContribution, ReleaseConfig.new]
  disallow_eq := by
    simp [ReleaseConfig.contributed, ReleaseConfig.addContribution, ReleaseConfig.new]

/-- A further contribution belongs behind the others if its index is the greatest one. -/
lemma assembledBelow_contributed {config : ReleaseConfig} {c : Contribution}
    (h : config.AssembledBelow (c.index + 1))
    (hne : ∀ other ∈ config.contributions, other.index ≠ c.index) :
    (config.contributed c).AssembledBelow (c.index + 1) where
  kind_ne := h.kind_ne
  index_eq := by
    obtain ⟨first, rest, hcontributions, hindex⟩ := h.index_eq
    refine ⟨first, rest ++ [c], ?_, hindex⟩
    simp [ReleaseConfig.contributed, ReleaseConfig.addContribution, hcontributions]
  indices_increase := by
    refine List.pairwise_append.mpr ⟨h.indices_increase, List.pairwise_singleton _ c, ?_⟩
    intro other hother last hlast
    obtain rfl := List.mem_singleton.mp hlast
    have hle := h.indices_lt other hother
    have hne := hne other hother
    omega
  indices_lt := by
    intro other hother
    rcases List.mem_append.mp hother with hother | hlast
    · exact h.indices_lt other hother
    · obtain rfl := List.mem_singleton.mp hlast
      exact Nat.lt_succ_self _
  inherits_eq := by
    have hinherits : (config.contributed c).inheritNames =
        distinct (config.inheritNames ++ c.file.inherits) := rfl
    rw [hinherits, h.inherits_eq, distinct_distinct_append]
    simp [ReleaseConfig.contributed, ReleaseConfig.addContribution]
  disallow_eq := by
    simp [ReleaseConfig.contributed, ReleaseConfig.addContribution, h.disallow_eq]

lemma Current.put_flag (h : Current index registry) {declaration : FlagDeclaration}
    (hvalid : declaration.Valid) (path : String) :
    Current index { registry with
      flags := registry.flags.put (.declare declaration (some index) path) } where
  directories_nodup := h.directories_nodup
  flags_below := by
    intro name flag hflag hname
    rw [Flags.put, NameMap.get?_insert] at hflag
    split at hflag
    · cases hflag
      have hbelow : (FlagState.declare declaration (some index) path).DeclaredBelow (index + 1) :=
        declaredBelow_declare hvalid path
      rw [← h.length_eq] at hbelow
      exact hbelow
    · exact h.flags_below name flag hflag hname
  configs_below := h.configs_below
  length_eq := h.length_eq

lemma Current.contributed {c : Contribution} (h : Current c.index registry)
    (hmay : registry.MayContribute c) : Current c.index (registry.contributed c) where
  directories_nodup := h.directories_nodup
  flags_below := h.flags_below
  configs_below := by
    intro name config hconfig
    simp only [Registry.contributed, NameMap.get?_insert] at hconfig
    split at hconfig
    · cases hconfig
      have hindex := hmay.index_ne
      have hlength : (registry.contributed c).directories.length = c.index + 1 := h.length_eq
      rw [hlength]
      simp only [configFor] at hindex ⊢
      cases hget : registry.configs.get? c.file.name with
      | none => exact assembledBelow_new c
      | some config =>
        simp only [hget, Option.getD_some] at hindex
        have hbelow := h.configs_below c.file.name config hget
        rw [h.length_eq] at hbelow
        exact assembledBelow_contributed hbelow hindex
    · exact h.configs_below name config hconfig
  length_eq := h.length_eq

/-- At a further directory the indices that are in use stay below the number of directories. -/
lemma Indexed.push (h : registry.Indexed) {display : String} (hnew : display ∉ registry.directories)
    (filesUsed : NameSet) : Current registry.directories.length { registry with
      directories := registry.directories ++ [display], filesUsed } where
  directories_nodup := by
    refine List.nodup_append.mpr ⟨h.directories_nodup, by simp, ?_⟩
    rintro name hname _ hlast rfl
    exact hnew (List.mem_singleton.mp hlast ▸ hname)
  flags_below := by
    intro name flag hflag hname
    exact (h.flags_below name flag hflag hname).mono (by simp)
  configs_below := by
    intro name config hconfig
    exact (h.configs_below name config hconfig).mono (by simp)
  length_eq := by simp

/-! ### Loads -/

/-- Each change of a load keeps the indices in order. -/
lemma loadInvariant_indexed : LoadInvariant Indexed Current where
  aliases _ _ h := { h with }
  directory _ _ filesUsed h hnew := h.push hnew filesUsed
  files _ _ _ h := { h with }
  declare _ _ _ path h hvalid _ := h.put_flag hvalid path
  contribute _ _ h hmay _ := h.contributed hmay
  maps _ _ _ h := { h with }
  stop _ _ h := h.toIndexed

lemma indexed_empty : Indexed empty where
  directories_nodup := List.nodup_nil
  flags_below := by
    intro name flag hflag hname
    rw [empty, Flags.put, NameMap.get?_insert] at hflag
    split at hflag
    · next heq => exact absurd heq hname
    · cases hflag
  configs_below := by
    intro name config hconfig
    cases hconfig

/-- The registry after loads of any config directories, of any trees, each of which may fail. -/
def afterLoads (loads : List (Source × String)) : Registry :=
  loads.foldl (fun registry load => ((load.1.loadDirectory load.2).run registry).2) empty

/-- A load keeps a registry well formed, wherever it stops. -/
theorem WellFormed.loadDirectory (h : registry.WellFormed) (source : Source) (name : String) :
    WellFormed ((source.loadDirectory name).run registry).2 where
  toLoaded := loadInvariant_loaded.preserves_loadDirectory source name registry h.toLoaded
  toIndexed := loadInvariant_indexed.preserves_loadDirectory source name registry h.toIndexed

/-- After any loads, successful or not, the registry is well formed: no directory comes twice; the
flag of the engine is as the engine made it; every other flag is stored under its name, as a valid
declaration in one of the directories left it, with one tracepoint and not redacted; every config is
stored under its name and made of contributions of the directories, by increasing index. -/
theorem wellFormed_of_loads (loads : List (Source × String)) : (afterLoads loads).WellFormed := by
  have hrun (registry : Registry) (h : registry.WellFormed) :
      (loads.foldl (fun registry load =>
        ((load.1.loadDirectory load.2).run registry).2) registry).WellFormed := by
    induction loads generalizing registry with
    | nil => exact h
    | cons load rest ih => exact ih _ (h.loadDirectory load.1 load.2)
  exact hrun empty { loaded_empty, indexed_empty with }

/-- Linking the aliases changes no index. -/
lemma Indexed.linkAliases (h : registry.Indexed) {linked : Registry}
    (hlink : registry.linkAliases = .ok linked) : linked.Indexed := by
  obtain ⟨owners, -, hlink⟩ := bind_eq_ok.mp hlink
  cases hlink
  refine { h with configs_below := fun name config hconfig => ?_ }
  rw [NameMap.get?_mapEntries, Option.map_eq_some_iff] at hconfig
  obtain ⟨old, hold, rfl⟩ := hconfig
  exact { h.configs_below name old hold with }

/-- After a scan the indices are in order. -/
theorem indexed_of_scan {source : Source} {directories : List String}
    (h : source.scan directories = .ok registry) : registry.Indexed := by
  obtain ⟨loaded, hrun, hlink⟩ := Source.exists_run_of_scan h
  exact (loadInvariant_indexed.of_run indexed_empty hrun).linkAliases hlink

end Registry

end ReleaseFlags
