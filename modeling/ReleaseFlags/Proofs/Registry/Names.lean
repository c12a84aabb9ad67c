import Mathlib.Data.List.Flatten
import Mathlib.Data.List.Nodup
import ReleaseFlags.Proofs.Registry.Contents
import ReleaseFlags.Proofs.Registry.Scanned

/-!
# The names of configs

A config is known under its own name and under the aliases that lead to it.  When aliases are
linked, each one is recorded with the config that it leads to (`linked_of_scan`), so looking a name
up and reading the recorded names say the same: a name leads to a config exactly if it is one of the
names of the config (`Linked.configStrict_eq_ok`).  Since a name leads to one config only, no name
occurs twice in the listing for builds, which is sorted but never deduplicated.  Configs are named
after files, so their names have no slashes (`flatNames_of_scan`).
-/

namespace ReleaseFlags

/-- The names under which a config is known: its own and the recorded aliases. -/
def ReleaseConfig.allNames (config : ReleaseConfig) : List String :=
  config.name :: config.otherNames

namespace Registry

variable {registry : Registry} {config other : ReleaseConfig} {name : String}

/-- The name of the config that a name leads to. -/
def ownerOf? (registry : Registry) (name : String) : Option String :=
  (registry.configStrict name).toOption.map ReleaseConfig.name

lemma ownerOf?_eq_some {owner : String} : registry.ownerOf? name = some owner ↔
    ∃ config, registry.configStrict name = .ok config ∧ config.name = owner := by
  rw [ownerOf?]
  cases registry.configStrict name with
  | ok config => simp [Except.toOption]
  | error e => simp [Except.toOption]

/-- The aliases that lead to the config of a name, increasing. -/
def aliasesOf (registry : Registry) (name : String) : List String :=
  registry.aliases.names.filter fun key => registry.ownerOf? key = some name

lemma mem_aliasesOf {key : String} : key ∈ registry.aliasesOf name ↔
    key ∈ registry.aliases.names ∧
      ∃ config, registry.configStrict key = .ok config ∧ config.name = name := by
  rw [aliasesOf, List.mem_filter, decide_eq_true_eq, ownerOf?_eq_some]

/-- The config, with the aliases that lead to it. -/
def linkedConfig (registry : Registry) (config : ReleaseConfig) : ReleaseConfig :=
  { config with otherNames := registry.aliasesOf config.name }

/-- The aliases are recorded with the configs that they lead to. -/
structure Linked (registry : Registry) : Prop where
  named : registry.Named
  /-- No alias hides a config. -/
  unshadowed : ∀ name config, registry.configs.get? name = some config →
    registry.aliases.get? name = none
  /-- Every alias leads to a config. -/
  leads : ∀ name ∈ registry.aliases.names, ∃ config, registry.configStrict name = .ok config
  otherNames_eq : ∀ name config, registry.configs.get? name = some config →
    config.otherNames = registry.aliasesOf config.name

/-! ### Linking -/

/-- Changing the configs changes what is found, and nothing of how it is found. -/
lemma lookup_mapEntries (f : ReleaseConfig → ReleaseConfig) (name : String) (allowMissing : Bool) :
    { registry with configs := registry.configs.mapEntries fun _ => f }.lookup name allowMissing =
      (registry.lookup name allowMissing).map f := by
  simp only [lookup, NameMap.get?_mapEntries]
  cases aliasChain registry.aliases name with
  | error trace => rfl
  | ok found =>
    obtain ⟨last, trace⟩ := found
    dsimp only
    cases registry.configs.get? last with
    | some config => rfl
    | none =>
      cases allowMissing with
      | false => rfl
      | true => cases registry.configs.get? fallbackName <;> rfl

/-- Changing the configs without their names changes no list of aliases. -/
lemma aliasesOf_mapEntries {f : ReleaseConfig → ReleaseConfig}
    (hf : ∀ config, (f config).name = config.name) (name : String) :
    { registry with configs := registry.configs.mapEntries fun _ => f }.aliasesOf name =
      registry.aliasesOf name := by
  refine List.filter_congr fun key _ => ?_
  rw [ownerOf?, configStrict, lookup_mapEntries, ← configStrict, ownerOf?]
  cases registry.configStrict key with
  | ok config => simp [Except.map, Except.toOption, hf]
  | error e => rfl

/-- What linking does: every alias leads to a config, and each config gets the list of those that
lead to it. -/
lemma linkAliases_eq_ok {linked : Registry} (h : registry.linkAliases = .ok linked) :
    (∀ name ∈ registry.aliases.names, ∃ config, registry.configStrict name = .ok config) ∧
      linked = { registry with configs := registry.configs.mapEntries fun _ =>
        registry.linkedConfig } := by
  obtain ⟨owners, howners, h⟩ := bind_eq_ok.mp h
  cases h
  have howner (e owner : String × String) (h : (do
      return (e.1, ← registry.aliasOwner e.1 e.2) : Except Error (String × String)) = .ok owner) :
      (owner.1, some owner.2) = (e.1, registry.ownerOf? e.1) := by
    obtain ⟨name, hname, h⟩ := bind_eq_ok.mp h
    cases h
    rw [ownerOf?_eq_some.mpr (aliasOwner_eq_ok.mp hname).2.2]
  constructor
  · intro name hname
    obtain ⟨target, htarget⟩ := NameMap.mem_names.mp hname
    obtain ⟨owner, -, h⟩ := exists_mem_of_mapM howners (NameMap.mem_entries.mpr htarget)
    have hfound := (Prod.mk.inj (howner (name, target) owner h)).2
    obtain ⟨config, hconfig, -⟩ := ownerOf?_eq_some.mp hfound.symm
    exact ⟨config, hconfig⟩
  · have hpairs : owners.map (fun owner => (owner.1, some owner.2)) =
        registry.aliases.entries.map fun e => (e.1, registry.ownerOf? e.1) :=
      map_eq_of_mapM howners fun e _ owner h => howner e owner h
    have hnames (name : String) : (owners.filter fun owner => owner.2 = name).map Prod.fst =
        registry.aliasesOf name :=
      calc (owners.filter fun owner => owner.2 = name).map Prod.fst
          = ((owners.map fun owner => (owner.1, some owner.2)).filter
              fun owner => owner.2 = some name).map Prod.fst := by
            simp [List.filter_map, Function.comp_def]
        _ = registry.aliasesOf name := by
            rw [hpairs]
            simp [aliasesOf, NameMap.names, List.filter_map, Function.comp_def]
    simp only [hnames]
    rfl

/-- What was read, with its aliases linked. -/
lemma Loaded.linked (h : registry.Loaded) {linked : Registry}
    (hlink : registry.linkAliases = .ok linked) : linked.Linked := by
  have hscanned := h.scanned hlink
  obtain ⟨hleads, rfl⟩ := linkAliases_eq_ok hlink
  refine ⟨hscanned.configs_named, hscanned.unshadowed, fun name hname => ?_, ?_⟩
  · obtain ⟨config, hconfig⟩ := hleads name hname
    refine ⟨registry.linkedConfig config, ?_⟩
    rw [configStrict, lookup_mapEntries, ← configStrict, hconfig]
    rfl
  · intro name config hconfig
    rw [NameMap.get?_mapEntries, Option.map_eq_some_iff] at hconfig
    obtain ⟨old, -, rfl⟩ := hconfig
    exact (aliasesOf_mapEntries (f := registry.linkedConfig) (fun _ => rfl) old.name).symm

/-- A scan leaves the aliases linked. -/
theorem linked_of_scan {source : Source} {directories : List String}
    (h : source.scan directories = .ok registry) : registry.Linked := by
  obtain ⟨loaded, hrun, hlink⟩ := Source.exists_run_of_scan h
  exact (loadInvariant_loaded.of_run loaded_empty hrun).linked hlink

/-! ### Names of files -/

/-- The names of configs have no slashes. -/
def FlatNames (registry : Registry) : Prop := ∀ name ∈ registry.configs.names, Path.Flat name

/-- A config is named after a file. -/
lemma loadInvariant_flatNames : LoadInvariant FlatNames fun _ => FlatNames where
  aliases _ _ h := h
  directory _ _ _ h _ := h
  files _ _ _ h := h
  declare _ _ _ _ h _ _ := h
  contribute registry c h _ hflat := by
    intro name hname
    obtain ⟨config, hget⟩ := NameMap.mem_names.mp hname
    rw [contributed, NameMap.get?_insert] at hget
    split at hget
    · next heq => exact heq ▸ hflat
    · exact h name (NameMap.mem_names.mpr ⟨config, hget⟩)
  maps _ _ _ h := h
  stop _ _ h := h

lemma flatNames_of_scan {source : Source} {directories : List String}
    (h : source.scan directories = .ok registry) : registry.FlatNames := by
  obtain ⟨loaded, hrun, hlink⟩ := Source.exists_run_of_scan h
  have hloaded : loaded.FlatNames := loadInvariant_flatNames.of_run nofun hrun
  obtain ⟨-, rfl⟩ := linkAliases_eq_ok hlink
  intro name hname
  obtain ⟨config, hget⟩ := NameMap.mem_names.mp hname
  rw [NameMap.get?_mapEntries, Option.map_eq_some_iff] at hget
  obtain ⟨old, hold, -⟩ := hget
  exact hloaded name (NameMap.mem_names.mpr ⟨old, hold⟩)

/-! ### Which names lead to a config -/

/-- A name that is no alias leads to the config of this name. -/
lemma configStrict_eq_ok_of_unaliased (h : registry.aliases.get? name = none) :
    registry.configStrict name = .ok config ↔ registry.configs.get? name = some config := by
  simp only [configStrict, lookup, aliasChain, followAliases, h]
  cases registry.configs.get? name <;> simp

/-- A name leads to a config exactly if it is one of the names under which the config is known. -/
lemma Linked.configStrict_eq_ok (h : registry.Linked) :
    registry.configStrict name = .ok config ↔ registry.Has config ∧ name ∈ config.allNames := by
  constructor
  · intro hfound
    have hc := has_of_lookup h.named hfound
    refine ⟨hc, List.mem_cons.mpr ?_⟩
    cases halias : registry.aliases.get? name with
    | none => exact .inl (h.named name config
        ((configStrict_eq_ok_of_unaliased halias).mp hfound)).symm
    | some target =>
      rw [h.otherNames_eq _ config hc]
      exact .inr (mem_aliasesOf.mpr ⟨NameMap.mem_names.mpr ⟨target, halias⟩, config, hfound, rfl⟩)
  · rintro ⟨hc, hname⟩
    rcases List.mem_cons.mp hname with rfl | hname
    · exact (configStrict_eq_ok_of_unaliased (h.unshadowed _ config hc)).mpr hc
    · rw [h.otherNames_eq _ config hc] at hname
      obtain ⟨-, found, hfound, heq⟩ := mem_aliasesOf.mp hname
      rwa [(has_of_lookup h.named hfound).eq_of_name hc heq] at hfound

lemma mem_allNames : name ∈ registry.allNames ↔
    name ∈ registry.configs.names ∨ name ∈ registry.aliases.names := by
  rw [allNames, NameSet.ofNames, NameSet.mem_addAll, List.mem_append]
  simp [NameMap.names, NameMap.empty]

/-- The name of a config is no alias. -/
lemma Linked.notMem_aliases (h : registry.Linked) (hc : registry.Has config) :
    config.name ∉ registry.aliases.names := by
  intro hname
  obtain ⟨target, htarget⟩ := NameMap.mem_names.mp hname
  rw [h.unshadowed _ config hc] at htarget
  cases htarget

lemma Linked.mem_otherNames (h : registry.Linked) (hc : registry.Has config)
    (hname : name ∈ config.otherNames) : name ∈ registry.aliases.names := by
  rw [h.otherNames_eq _ config hc] at hname
  exact (mem_aliasesOf.mp hname).1

/-- No name occurs twice among the names of all configs, since it leads to one config only. -/
lemma Linked.nodup_allNames (h : registry.Linked) :
    (registry.configs.values.flatMap ReleaseConfig.allNames).Nodup := by
  have hhas (config) (hconfig : config ∈ registry.configs.values) : registry.Has config :=
    (mem_values_configs h.named).mp hconfig
  have hnames : (registry.configs.values.map ReleaseConfig.name).Pairwise (· < ·) := by
    rw [NameMap.map_values h.named]
    exact registry.configs.pairwise_names
  rw [List.nodup_flatMap]
  refine ⟨fun config hconfig => ?_, ?_⟩
  · have hc := hhas config hconfig
    refine List.nodup_cons.mpr ⟨fun hname => ?_, ?_⟩
    · exact h.notMem_aliases hc (h.mem_otherNames hc hname)
    · rw [h.otherNames_eq _ config hc]
      exact registry.aliases.nodup_names.filter _
  · refine (List.pairwise_map.mp hnames).imp_of_mem fun {config other} hconfig hother hlt => ?_
    intro name hname hname'
    have hfound := h.configStrict_eq_ok.mpr ⟨hhas config hconfig, hname⟩
    rw [h.configStrict_eq_ok.mpr ⟨hhas other hother, hname'⟩] at hfound
    cases hfound
    exact String.lt_irrefl _ hlt

/-- The listing for builds has no repetitions, although nothing removes any. -/
lemma Linked.pairwise_listableNames (h : registry.Linked) :
    registry.listableNames.Pairwise (· < ·) := by
  have hnodup : registry.listableNames.Nodup := by
    refine (List.mergeSort_perm _ _).nodup_iff.mpr (h.nodup_allNames.sublist ?_)
    exact List.filter_sublist.flatMap _
  have hsorted : registry.listableNames.Pairwise (· ≤ ·) := by
    refine (List.pairwise_mergeSort ?_ ?_ _).imp of_decide_eq_true
    · intro a b c hab hbc
      exact decide_eq_true (String.le_trans (of_decide_eq_true hab) (of_decide_eq_true hbc))
    · intro a b
      simpa using String.le_total a b
  refine (hsorted.and hnodup).imp fun ⟨hle, hne⟩ => ?_
  exact Decidable.not_not.mp fun hlt => hne (String.le_antisymm hle (String.not_lt.mp hlt))

lemma Linked.mem_listableNames (h : registry.Linked) : name ∈ registry.listableNames ↔
    ∃ config, registry.configStrict name = .ok config ∧ config.isListable = true := by
  rw [listableNames, (List.mergeSort_perm _ _).mem_iff, List.mem_flatMap]
  simp only [List.mem_filter, mem_values_configs h.named, h.configStrict_eq_ok]
  exact exists_congr fun config => and_right_comm

lemma isListable_iff :
    config.isListable = true ↔ config.kind = .release ∧ config.disallowLunchUse = false := by
  simp [ReleaseConfig.isListable, and_comm]

/-- The names of a registry, the configs that they lead to, the names that the configs record and
the two listings of names agree. -/
structure ConsistentNames (registry : Registry) : Prop where
  all_increase : registry.allNames.Pairwise (· < ·)
  mem_all : ∀ name, name ∈ registry.allNames ↔
    name ∈ registry.configs.names ∨ name ∈ registry.aliases.names
  /-- The name of a config leads to this config. -/
  config_found : ∀ name ∈ registry.configs.names, ∃ config,
    registry.configStrict name = .ok config ∧ config.name = name
  /-- An alias leads to a config that records it, and no other config does. -/
  alias_found : ∀ name ∈ registry.aliases.names, ∃ config ∈ registry.configs.values,
    registry.configStrict name = .ok config ∧ name ∈ config.otherNames ∧
      ∀ other ∈ registry.configs.values, name ∈ other.otherNames → other = config
  recorded_aliases : ∀ config ∈ registry.configs.values, ∀ name ∈ config.otherNames,
    name ∈ registry.aliases.names
  recorded_increase : ∀ config ∈ registry.configs.values, config.otherNames.Pairwise (· < ·)
  listable_increase : registry.listableNames.Pairwise (· < ·)
  mem_listable : ∀ name, name ∈ registry.listableNames ↔ name ∈ registry.allNames ∧
    ∃ config, registry.configStrict name = .ok config ∧ config.kind = .release ∧
      config.disallowLunchUse = false

/-- What leads to a config is listed. -/
lemma Linked.mem_allNames_of_configStrict (h : registry.Linked)
    (hfound : registry.configStrict name = .ok config) : name ∈ registry.allNames := by
  obtain ⟨hc, hname⟩ := h.configStrict_eq_ok.mp hfound
  rcases List.mem_cons.mp hname with rfl | hname
  · exact mem_allNames.mpr (.inl hc.mem_names)
  · exact mem_allNames.mpr (.inr (h.mem_otherNames hc hname))

/-- After a scan the names agree, whatever aliases the config directories define. -/
theorem consistentNames_of_scan {source : Source} {directories : List String}
    (hscan : source.scan directories = .ok registry) : registry.ConsistentNames := by
  have h := linked_of_scan hscan
  refine ⟨NameMap.pairwise_names _, fun name => mem_allNames, fun name hname => ?_,
    fun name hname => ?_, fun config hconfig name hname => ?_, fun config hconfig => ?_,
    h.pairwise_listableNames, fun name => ?_⟩
  · obtain ⟨config, hconfig⟩ := NameMap.mem_names.mp hname
    have halias := h.unshadowed name config hconfig
    exact ⟨config, (configStrict_eq_ok_of_unaliased halias).mpr hconfig,
      h.named name config hconfig⟩
  · obtain ⟨config, hfound⟩ := h.leads name hname
    obtain ⟨hc, hlisted⟩ := h.configStrict_eq_ok.mp hfound
    refine ⟨config, (mem_values_configs h.named).mpr hc, hfound, ?_,
      fun other hother hrecorded => ?_⟩
    · rcases List.mem_cons.mp hlisted with rfl | hrecorded
      · exact absurd hname (h.notMem_aliases hc)
      · exact hrecorded
    · have hlisted' : name ∈ other.allNames := List.mem_cons_of_mem _ hrecorded
      have hfound' := h.configStrict_eq_ok.mpr ⟨(mem_values_configs h.named).mp hother, hlisted'⟩
      rw [hfound] at hfound'
      exact (Except.ok.inj hfound').symm
  · exact h.mem_otherNames ((mem_values_configs h.named).mp hconfig) hname
  · rw [h.otherNames_eq _ config ((mem_values_configs h.named).mp hconfig)]
    exact registry.aliases.pairwise_names.filter _
  · simp only [h.mem_listableNames, isListable_iff]
    constructor
    · rintro ⟨config, hfound, hlistable⟩
      exact ⟨h.mem_allNames_of_configStrict hfound, config, hfound, hlistable⟩
    · exact fun ⟨_, hfound⟩ => hfound

theorem consistentNames_of_scan_pair : ∃ registry, Source.pair.scan ["d", "e"] = .ok registry ∧
    registry.ConsistentNames := by
  have hok : (Source.pair.scan ["d", "e"]).isOk = true := by decide +kernel
  cases hscan : Source.pair.scan ["d", "e"] with
  | error e =>
    rw [hscan] at hok
    cases hok
  | ok registry => exact ⟨registry, rfl, consistentNames_of_scan hscan⟩

end Registry

end ReleaseFlags
