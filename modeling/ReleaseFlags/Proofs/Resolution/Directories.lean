import ReleaseFlags.Proofs.Resolution.Legality
import ReleaseFlags.Proofs.Resolution.Shape

/-!
# Contributing directories

A resolved config lists the directories that could give values to it, which are those of its
contributions, and the directories that contribute at all, which are these and the ones that declare
a flag which it sets.  While the own values are applied only indices are collected, and the lists
are made of them in the end, in the order of all directories (`lists_directoriesAt`).  Since a flag
is declared in no later directory than the one that sets it, the last directory of both lists is the
same (`listsDirectories_of_generate`).
-/

namespace ReleaseFlags

variable {registry : Registry} {config : ReleaseConfig} {resolved : Resolved} {flags flags' : Flags}
  {working : Working} {inherits listed : List String} {indices : List Nat} {directory last : String}

/-! ### Indices -/

/-- Where a flag is declared never changes. -/
lemma Flags.Becomes.declarationIndex_eq (h : flags.Becomes flags') (name : String) :
    (flags'.get? name).bind FlagState.declarationIndex =
      (flags.get? name).bind FlagState.declarationIndex := by
  have hrel := h name
  generalize flags.get? name = old, flags'.get? name = new at hrel ⊢
  cases hrel with
  | some hbecomes => exact hbecomes.declarationIndex
  | none => rfl

lemma Flags.Becomes.indices_eq (h : flags.Becomes flags') (config : ReleaseConfig) :
    config.indices flags' = config.indices flags := by
  simp only [ReleaseConfig.indices, h.declarationIndex_eq]

/-- The indices are those of the contributions and of the flags that the own values are for. -/
lemma mem_indices {index : Nat} : index ∈ config.indices flags ↔ index ∈ config.valueIndices ∨
    ∃ value ∈ config.ownValues, ∃ flag, flags.get? value.name = some flag ∧
      flag.declarationIndex = some index := by
  simp only [ReleaseConfig.indices, ReleaseConfig.ownValues, List.mem_append, List.mem_flatMap,
    List.mem_filterMap, Option.bind_eq_some_iff]
  refine or_congr_right ⟨?_, ?_⟩
  · rintro ⟨c, hc, value, hvalue, hindex⟩
    exact ⟨value, ⟨c, hc, hvalue⟩, hindex⟩
  · rintro ⟨value, ⟨c, hc, hvalue⟩, hindex⟩
    exact ⟨c, hc, value, hvalue, hindex⟩

namespace Registry

/-! ### Lists of directories -/

/-- The list has exactly the directories with the property, in the order of all directories and
without repetition. -/
structure ListsThose (registry : Registry) (P : String → Prop) (listed : List String) : Prop where
  sublist : listed.Sublist registry.directories
  nodup : listed.Nodup
  mem_iff : ∀ directory, directory ∈ listed ↔ P directory

/-- The directories with given indices are found at these indices. -/
lemma mem_directoriesAt :
    directory ∈ registry.directoriesAt indices ↔
      ∃ index ∈ indices, registry.directories[index]? = some directory := by
  simp only [directoriesAt, List.mem_map, List.mem_filter, decide_eq_true_eq, Prod.exists,
    exists_and_right, exists_eq_right, List.mem_zipIdx_iff_getElem?]
  constructor
  · rintro ⟨index, hget, hindex⟩
    exact ⟨index, hindex, hget⟩
  · rintro ⟨index, hindex, hget⟩
    exact ⟨index, hget, hindex⟩

lemma directoriesAt_sublist (registry : Registry) (indices : List Nat) :
    (registry.directoriesAt indices).Sublist registry.directories := by
  have hsublist : (registry.directoriesAt indices).Sublist
      (registry.directories.zipIdx.map Prod.fst) := List.filter_sublist.map Prod.fst
  rwa [List.zipIdx_map_fst] at hsublist

lemma directoriesAt_sublist_of_subset {more : List Nat} (h : indices ⊆ more) :
    (registry.directoriesAt indices).Sublist (registry.directoriesAt more) := by
  refine (List.monotone_filter_right _ fun e he => ?_).map Prod.fst
  exact decide_eq_true (h (of_decide_eq_true he))

lemma lists_directoriesAt (h : registry.directories.Nodup) {P : String → Prop}
    (hmem : ∀ directory, directory ∈ registry.directoriesAt indices ↔ P directory) :
    registry.ListsThose P (registry.directoriesAt indices) where
  sublist := registry.directoriesAt_sublist indices
  nodup := h.sublist (registry.directoriesAt_sublist indices)
  mem_iff := hmem

/-- A directory is found at one index only. -/
lemma idxOf_of_getElem? (h : registry.directories.Nodup) {index : Nat}
    (hget : registry.directories[index]? = some directory) :
    registry.directories.idxOf directory = index := by
  obtain ⟨hlt, rfl⟩ := List.getElem?_eq_some_iff.mp hget
  exact h.idxOf_getElem index hlt

/-- No directory of a list in order comes after the last one. -/
lemma idxOf_le_last (h : registry.directories.Nodup) (hlisted : listed.Sublist registry.directories)
    (hlast : listed.getLast? = some last) (hdirectory : directory ∈ listed) :
    registry.directories.idxOf directory ≤ registry.directories.idxOf last := by
  have hall : registry.directories.Pairwise fun one other =>
      registry.directories.idxOf one < registry.directories.idxOf other := by
    refine List.pairwise_iff_getElem.mpr fun i j hi hj hlt => ?_
    rwa [h.idxOf_getElem i hi, h.idxOf_getElem j hj]
  have hpairwise := hall.sublist hlisted
  obtain ⟨front, rfl⟩ := List.getLast?_eq_some_iff.mp hlast
  rcases List.mem_append.mp hdirectory with hfront | hend
  · exact Nat.le_of_lt ((List.pairwise_append.mp hpairwise).2.2 directory hfront last (by simp))
  · rw [List.mem_singleton.mp hend]

/-! ### The directories of a config -/

/-- The directory holds a contribution of the config. -/
def Contributes (registry : Registry) (config : ReleaseConfig) (directory : String) : Prop :=
  ∃ c ∈ config.contributions, registry.directories[c.index]? = some directory

/-- The directory declares a flag that an own value of the config sets or redacts. -/
def DeclaresFor (registry : Registry) (config : ReleaseConfig) (directory : String) : Prop :=
  ∃ value ∈ config.ownValues, ∃ flag index, registry.flags.get? value.name = some flag ∧
    flag.declarationIndex = some index ∧ registry.directories[index]? = some directory

lemma mem_valueDirectories : directory ∈ registry.directoriesAt config.valueIndices ↔
    registry.Contributes config directory := by
  rw [mem_directoriesAt, ReleaseConfig.valueIndices, Contributes]
  simp only [List.mem_map, exists_exists_and_eq_and]

lemma mem_directories : directory ∈ registry.directoriesAt (config.indices registry.flags) ↔
    registry.Contributes config directory ∨ registry.DeclaresFor config directory := by
  rw [← mem_valueDirectories, mem_directoriesAt, mem_directoriesAt]
  simp only [mem_indices, or_and_right, exists_or]
  refine or_congr_right ⟨?_, ?_⟩
  · rintro ⟨index, ⟨value, hvalue, flag, hflag, hindex⟩, hget⟩
    exact ⟨value, hvalue, flag, index, hflag, hindex, hget⟩
  · rintro ⟨value, hvalue, flag, index, hflag, hindex, hget⟩
    exact ⟨index, ⟨value, hvalue, flag, hflag, hindex⟩, hget⟩

/-- The lists of directories in a report are exact. -/
structure ListsDirectories (registry : Registry) (config : ReleaseConfig)
    (report : ReleaseReport) : Prop where
  values : registry.ListsThose (registry.Contributes config) report.valueDirectories
  all : registry.ListsThose (fun directory => registry.Contributes config directory ∨
    registry.DeclaresFor config directory) report.directories
  sublist : report.valueDirectories.Sublist report.directories
  /-- No directory that contributes comes after the last one that could give values. -/
  last : ∃ last, report.valueDirectories.getLast? = some last ∧ ∀ directory ∈ report.directories,
    registry.directories.idxOf directory ≤ registry.directories.idxOf last

lemma directories_of_freeze (h : working.freeze registry config inherits = .ok resolved) :
    resolved.report.valueDirectories = registry.directoriesAt config.valueIndices ∧
      resolved.report.directories = registry.directoriesAt (config.indices working.flags) := by
  obtain ⟨-, -, h⟩ := bind_eq_ok.mp h
  cases h
  exact ⟨rfl, rfl⟩

/-- Some directory contributes to each config. -/
lemma Indexed.exists_contributes (h : registry.Indexed) (hc : registry.Has config) :
    ∃ directory, registry.Contributes config directory := by
  have hbelow := h.configs_below config.name config hc
  obtain ⟨first, rest, hcontributions, -⟩ := hbelow.index_eq
  have hfirst : first ∈ config.contributions := by simp [hcontributions]
  exact ⟨_, first, hfirst, List.getElem?_eq_getElem (hbelow.indices_lt first hfirst)⟩

/-- A directory that declares a flag for a config that keeps the rules comes no later than some
directory that holds a contribution. -/
lemma Legal.exists_contributes (h : registry.Legal config) (hindexed : registry.Indexed)
    (hc : registry.Has config) (hdeclares : registry.DeclaresFor config directory) :
    ∃ other, registry.Contributes config other ∧
      registry.directories.idxOf directory ≤ registry.directories.idxOf other := by
  obtain ⟨value, hvalue, flag, index, hflag, hindex, hdirectory⟩ := hdeclares
  obtain ⟨c, hmem, hvalue⟩ := List.mem_flatMap.mp hvalue
  -- the rule that a flag is declared before it is set
  obtain ⟨declared, hdeclared, hmay, -⟩ := h.may_set c hmem value hvalue
  obtain rfl : flag = declared := Option.some.inj (hflag.symm.trans hdeclared)
  have hlt := (hindexed.configs_below config.name config hc).indices_lt c hmem
  have hother := List.getElem?_eq_getElem hlt
  refine ⟨_, ⟨c, hmem, hother⟩, ?_⟩
  rw [idxOf_of_getElem? hindexed.directories_nodup hdirectory,
    idxOf_of_getElem? hindexed.directories_nodup hother]
  exact hmay index hindex

lemma Legal.listsDirectories (h : registry.Legal config) (hindexed : registry.Indexed)
    (hc : registry.Has config) {report : ReleaseReport}
    (hvalues : report.valueDirectories = registry.directoriesAt config.valueIndices)
    (hall : report.directories = registry.directoriesAt (config.indices registry.flags)) :
    registry.ListsDirectories config report := by
  have hnodup := hindexed.directories_nodup
  have hlists : registry.ListsThose (registry.Contributes config) report.valueDirectories :=
    hvalues ▸ lists_directoriesAt hnodup fun _ => mem_valueDirectories
  have hlists' : registry.ListsThose (fun directory => registry.Contributes config directory ∨
      registry.DeclaresFor config directory) report.directories :=
    hall ▸ lists_directoriesAt hnodup fun _ => mem_directories
  refine ⟨hlists, hlists', ?_, ?_⟩
  · rw [hvalues, hall]
    exact directoriesAt_sublist_of_subset (List.subset_append_left _ _)
  · obtain ⟨one, hone⟩ := hindexed.exists_contributes hc
    have hne : report.valueDirectories ≠ [] := List.ne_nil_of_mem ((hlists.mem_iff one).mpr hone)
    have hlast := List.getLast?_eq_some_getLast hne
    have hle (other : String) (hother : registry.Contributes config other) :=
      idxOf_le_last hnodup hlists.sublist hlast ((hlists.mem_iff other).mpr hother)
    refine ⟨_, hlast, fun directory hdirectory => ?_⟩
    rcases (hlists'.mem_iff directory).mp hdirectory with hcontributes | hdeclares
    · exact hle directory hcontributes
    · obtain ⟨other, hother, hbefore⟩ := h.exists_contributes hindexed hc hdeclares
      exact Nat.le_trans hbefore (hle other hother)

/-- **Contributing directories.**  If a name or alias resolves, the directories in the report are
exactly those that hold contributions of its config, and those that declare flags for them. -/
theorem listsDirectories_of_generate (h : registry.Reached) {target : String}
    (hr : ((generate target).run registry).1 = .ok resolved) :
    ∃ config, registry.configStrict target = .ok config ∧
      registry.ListsDirectories config resolved.report := by
  obtain ⟨config, hconfig, hc, hr⟩ := h.coherent.exists_of_generate hr
  obtain ⟨s⟩ := h.coherent.stages hc hr
  obtain ⟨hvalues, hall⟩ := directories_of_freeze s.resolved_eq
  rw [s.becomes_final.indices_eq] at hall
  have hlegal := s.legal fun e => h.named_of_mem s
  exact ⟨config, hconfig, hlegal.listsDirectories h.indexed hc hvalues hall⟩

/-! ### A sample -/

/-- Three config directories: the first one declares a flag, the last one sets it for a config. -/
def spread : Source where
  tree := {
    nodes := ⟨[
      ("/d", .directory),
      ("/d/flag_declarations", .directory),
      ("/d/flag_declarations/F.toml", .file (some "name='F'\nnamespace=''")),
      ("/d/release_config_map.toml", .file (some "")),
      ("/e", .directory),
      ("/e/release_config_map.toml", .file (some "")),
      ("/f", .directory),
      ("/f/flag_values", .directory),
      ("/f/flag_values/a", .directory),
      ("/f/flag_values/a/F.toml", .file (some "name='F'\nredacted=true")),
      ("/f/release_config_map.toml", .file (some "")),
      ("/f/release_configs", .directory),
      ("/f/release_configs/a.toml", .file (some "name='a'"))], by
        unfold Increasing
        decide +kernel⟩
    workingDirectory := "" }
  root := ⟨""⟩

/-- A directory that only declares a flag contributes, and one that does neither does not. -/
theorem listsDirectories_of_generate_spread : ∃ scanned, spread.scan ["d", "e", "f"] = .ok scanned ∧
    let registry := { scanned with allowMissing := false }.setOptions .default
    registry.Reached ∧ ∃ config resolved, registry.configStrict "a" = .ok config ∧
      ((generate "a").run registry).1 = .ok resolved ∧
      registry.ListsDirectories config resolved.report ∧
      resolved.report.directories = ["d", "f"] ∧ resolved.report.valueDirectories = ["f"] := by
  have hshows : (spread.scan ["d", "e", "f"]).toOption.any (fun scanned =>
      let registry := { scanned with allowMissing := false }.setOptions .default
      ((generate "a").run registry).1.toOption.any fun resolved =>
        resolved.report.directories = ["d", "f"] ∧
          resolved.report.valueDirectories = ["f"]) = true := by
    decide +kernel
  obtain ⟨scanned, hscan, hshows⟩ := exists_of_toOption hshows
  obtain ⟨resolved, hrun, hlisted⟩ := exists_of_toOption hshows
  have hreached : ({ scanned with allowMissing := false }.setOptions .default).Reached :=
    ⟨spread, ["d", "e", "f"], scanned, false, .default, [], hscan, rfl⟩
  obtain ⟨config, hconfig, hlists⟩ := listsDirectories_of_generate hreached hrun
  exact ⟨scanned, hscan, hreached, config, resolved, hconfig, hrun, hlists,
    of_decide_eq_true hlisted⟩

end Registry

end ReleaseFlags
