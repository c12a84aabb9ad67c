import ReleaseFlags.Proofs.Registry.Lookup
import ReleaseFlags.Proofs.Registry.Names

/-!
# Linking aliases at any time

Aliases may be linked while config directories are still being read, and again when more were read.
The checks look at one alias at a time, but together they say where all chains end: linking succeeds
exactly if no alias hides a config and every alias leads to one (`exists_linkAliases_iff`).  The
names that a config got from an earlier link play no part, since what is recorded depends on the
aliases and on the names of the configs only (`mem_aliasesOf_iff`).  So a registry that was built in
any way is left alone, or linked for good (`linksExactly_built`).
-/

namespace ReleaseFlags

namespace Registry

/-- Links the aliases of the registry.  Where this fails the registry stays as it is. -/
def link : Session Unit := do
  set (← liftExcept (← get).linkAliases)

end Registry

/-- A call while a registry is built. -/
inductive BuildCall where
  /-- Read a config directory of a source tree. -/
  | load (source : Source) (directory : String)
  | link

/-- Does what the call asks for. -/
def BuildCall.perform : BuildCall → Session Unit
  | load source directory => source.loadDirectory directory
  | link => Registry.link

namespace Registry

variable {registry linked : Registry} {config : ReleaseConfig} {name : String}

lemma run_link (registry : Registry) : link.run registry = match registry.linkAliases with
    | .ok linked => (.ok (), linked)
    | .error e => (.error e, registry) := by
  rw [link, run_get_bind, run_liftExcept_bind]
  cases registry.linkAliases <;> rfl

/-- The registry after some calls, whether or not they succeed. -/
def built (calls : List BuildCall) : Registry :=
  calls.foldl (fun registry call => (call.perform.run registry).2) empty

/-- Each call keeps the invariants of reading, whether it succeeds or not. -/
lemma Loaded.perform (h : registry.Loaded) (call : BuildCall) :
    Loaded (call.perform.run registry).2 := by
  cases call with
  | load source directory =>
    exact loadInvariant_loaded.preserves_loadDirectory source directory registry h
  | link =>
    rw [BuildCall.perform, run_link]
    cases hlink : registry.linkAliases with
    | ok linked => exact (h.scanned hlink).toLoaded
    | error e => exact h

lemma loaded_built (calls : List BuildCall) : (built calls).Loaded := by
  have hrun (registry : Registry) (h : registry.Loaded) :
      (calls.foldl (fun registry call => (call.perform.run registry).2) registry).Loaded := by
    induction calls generalizing registry with
    | nil => exact h
    | cons call rest ih => exact ih _ (h.perform call)
  exact hrun empty loaded_empty

/-! ### When linking succeeds -/

/-- No alias has the name of a config, and every alias leads to a config. -/
structure Linkable (registry : Registry) : Prop where
  unshadowed : ∀ name ∈ registry.aliases.names, name ∉ registry.configs.names
  leads : ∀ name ∈ registry.aliases.names, ∃ last ∈ registry.configs.names,
    LeadsTo registry.aliases name last

/-- The target of an alias that leads to a config is this config, or an alias again. -/
lemma LeadsTo.target_known {target last : String} (h : LeadsTo registry.aliases name last)
    (htarget : Targets registry.aliases name target)
    (hlast : registry.configs.get? last = some config) :
    registry.configs.contains target = true ∨ registry.aliases.contains target = true := by
  rcases h.reaches.cases_head with rfl | ⟨next, hnext, hrest⟩
  · cases htarget.symm.trans h.unaliased
  obtain rfl := htarget.unique hnext
  rcases hrest.cases_head with rfl | ⟨other, hother, -⟩
  · exact .inl (by rw [NameMap.contains, hlast, Option.isSome_some])
  · exact .inr (by rw [NameMap.contains, show registry.aliases.get? target = some other from hother,
      Option.isSome_some])

/-- An alias has an owner if it does not hide a config and leads to one; a chain that leads to a
config has no place where it dangles. -/
lemma exists_aliasOwner_iff {target : String} (htarget : Targets registry.aliases name target) :
    (∃ owner, registry.aliasOwner name target = .ok owner) ↔ name ∉ registry.configs.names ∧
      ∃ last ∈ registry.configs.names, LeadsTo registry.aliases name last := by
  have hunshadowed : registry.configs.get? name = none ↔ name ∉ registry.configs.names := by
    rw [NameMap.mem_names, not_exists, Option.eq_none_iff_forall_ne_some]
  simp only [aliasOwner_eq_ok, hunshadowed, exists_and_left]
  refine and_congr_right fun _ => ⟨?_, ?_⟩
  · rintro ⟨-, owner, config, hfound, -⟩
    obtain ⟨last, hleads, hlast⟩ := configStrict_eq_ok_iff.mp hfound
    exact ⟨last, NameMap.mem_names.mpr ⟨config, hlast⟩, hleads⟩
  · rintro ⟨last, hlast, hleads⟩
    obtain ⟨config, hlast⟩ := NameMap.mem_names.mp hlast
    exact ⟨hleads.target_known htarget hlast, config.name, config,
      configStrict_eq_ok_iff.mpr ⟨last, hleads, hlast⟩, rfl⟩

/-- Linking goes through all aliases, and each of them needs an owner. -/
lemma exists_linkAliases_iff_owners : (∃ linked, registry.linkAliases = .ok linked) ↔
    ∀ name target, Targets registry.aliases name target →
      ∃ owner, registry.aliasOwner name target = .ok owner := by
  constructor
  · rintro ⟨linked, hlink⟩ name target htarget
    obtain ⟨owners, howners, -⟩ := bind_eq_ok.mp hlink
    obtain ⟨_, -, howner⟩ := exists_mem_of_mapM howners (NameMap.mem_entries.mpr htarget)
    obtain ⟨owner, howner, -⟩ := bind_eq_ok.mp howner
    exact ⟨owner, howner⟩
  · intro h
    have hall (e : String × String) (he : e ∈ registry.aliases.entries) : ∃ owned, (do
        return (e.1, ← registry.aliasOwner e.1 e.2) : Except Error (String × String)) =
          .ok owned := by
      obtain ⟨owner, howner⟩ := h e.1 e.2 (NameMap.mem_entries.mp he)
      exact ⟨(e.1, owner), bind_eq_ok.mpr ⟨owner, howner, rfl⟩⟩
    obtain ⟨owners, howners⟩ := exists_mapM_eq_ok hall
    exact ⟨_, bind_eq_ok.mpr ⟨owners, howners, rfl⟩⟩

lemma exists_linkAliases_iff : (∃ linked, registry.linkAliases = .ok linked) ↔
    registry.Linkable := by
  rw [exists_linkAliases_iff_owners]
  constructor
  · intro h
    have hname (name : String) (hname : name ∈ registry.aliases.names) :
        name ∉ registry.configs.names ∧
          ∃ last ∈ registry.configs.names, LeadsTo registry.aliases name last := by
      obtain ⟨target, htarget⟩ := NameMap.mem_names.mp hname
      exact (exists_aliasOwner_iff htarget).mp (h name target htarget)
    exact ⟨fun name h => (hname name h).1, fun name h => (hname name h).2⟩
  · intro h name target htarget
    have hname : name ∈ registry.aliases.names := NameMap.mem_names.mpr ⟨target, htarget⟩
    exact (exists_aliasOwner_iff htarget).mpr ⟨h.unshadowed name hname, h.leads name hname⟩

/-! ### What linking changes -/

/-- The aliases of a config are those that lead to its name, whatever was recorded before. -/
lemma mem_aliasesOf_iff (hn : registry.Named) (hname : name ∈ registry.configs.names)
    {key : String} : key ∈ registry.aliasesOf name ↔
      key ∈ registry.aliases.names ∧ LeadsTo registry.aliases key name := by
  rw [mem_aliasesOf]
  refine and_congr_right fun _ => ⟨?_, ?_⟩
  · rintro ⟨config, hfound, rfl⟩
    obtain ⟨last, hleads, hlast⟩ := configStrict_eq_ok_iff.mp hfound
    exact hn last config hlast ▸ hleads
  · intro hleads
    obtain ⟨config, hget⟩ := NameMap.mem_names.mp hname
    exact ⟨config, configStrict_eq_ok_iff.mpr ⟨name, hleads, hget⟩, hn name config hget⟩

/-- Linking changes nothing but the recorded names of the configs: each config gets the aliases
that lead to it, in order. -/
structure Links (registry linked : Registry) : Prop where
  rest_eq : { linked with configs := registry.configs } = registry
  names_eq : linked.configs.names = registry.configs.names
  records : ∀ name config, registry.configs.get? name = some config → ∃ others,
    linked.configs.get? name = some { config with otherNames := others } ∧
      others.Pairwise (· < ·) ∧ ∀ key, key ∈ others ↔
        key ∈ registry.aliases.names ∧ LeadsTo registry.aliases key name

lemma links_of_linkAliases (hn : registry.Named) (hlink : registry.linkAliases = .ok linked) :
    registry.Links linked := by
  obtain ⟨-, rfl⟩ := linkAliases_eq_ok hlink
  refine ⟨rfl, ?_, fun name config hget => ?_⟩
  · simp [NameMap.names, NameMap.mapEntries]
  · obtain rfl := hn name config hget
    refine ⟨registry.aliasesOf config.name, ?_, ?_, fun key => ?_⟩
    · rw [NameMap.get?_mapEntries, hget]
      rfl
    · exact registry.aliases.pairwise_names.filter _
    · exact mem_aliasesOf_iff hn (NameMap.mem_names.mpr ⟨config, hget⟩)

lemma Linked.linkable (h : registry.Linked) : registry.Linkable where
  unshadowed := by
    intro name hname hconfig
    obtain ⟨config, hget⟩ := NameMap.mem_names.mp hconfig
    obtain ⟨target, htarget⟩ := NameMap.mem_names.mp hname
    cases htarget.symm.trans (h.unshadowed name config hget)
  leads := by
    intro name hname
    obtain ⟨config, hfound⟩ := h.leads name hname
    obtain ⟨last, hleads, hlast⟩ := configStrict_eq_ok_iff.mp hfound
    exact ⟨last, NameMap.mem_names.mpr ⟨config, hlast⟩, hleads⟩

/-- Linking what is linked changes nothing. -/
lemma Linked.linkAliases_eq (h : registry.Linked) : registry.linkAliases = .ok registry := by
  obtain ⟨linked, hlink⟩ := exists_linkAliases_iff.mpr h.linkable
  obtain ⟨-, heq⟩ := linkAliases_eq_ok hlink
  -- each config has recorded already what it gets
  have hconfigs : (registry.configs.mapEntries fun _ => registry.linkedConfig) =
      registry.configs := by
    refine NameMap.ext_get? fun name => ?_
    rw [NameMap.get?_mapEntries]
    cases hget : registry.configs.get? name with
    | none => rfl
    | some config =>
      rw [Option.map_some, linkedConfig, ← h.otherNames_eq name config hget]
  rw [hlink, heq, hconfigs]

/-- Linking the aliases is all or nothing, and may be repeated. -/
structure LinksExactly (registry : Registry) : Prop where
  succeeds_iff : (link.run registry).1 = .ok () ↔ registry.Linkable
  unchanged : ∀ e, (link.run registry).1 = .error e → (link.run registry).2 = registry
  links : (link.run registry).1 = .ok () → registry.Links (link.run registry).2
  again : link.run (link.run registry).2 = link.run registry

lemma Loaded.linksExactly (h : registry.Loaded) : registry.LinksExactly := by
  have hlinkable := registry.exists_linkAliases_iff
  cases hlink : registry.linkAliases with
  | ok linked =>
    have hrun : link.run registry = (.ok (), linked) := by rw [run_link, hlink]
    refine ⟨?_, ?_, ?_, ?_⟩ <;> rw [hrun]
    · exact iff_of_true rfl (hlinkable.mp ⟨linked, hlink⟩)
    · exact nofun
    · exact fun _ => links_of_linkAliases h.configs_named hlink
    · rw [run_link, (h.linked hlink).linkAliases_eq]
  | error e =>
    have hrun : link.run registry = (.error e, registry) := by rw [run_link, hlink]
    refine ⟨?_, ?_, ?_, ?_⟩ <;> rw [hrun]
    · refine iff_of_false nofun fun h => ?_
      obtain ⟨linked, hok⟩ := hlinkable.mpr h
      cases hlink.symm.trans hok
    · exact fun _ _ => rfl
    · exact nofun
    · exact hrun

/-- **Linking at any time.**  However a registry was built, by loads and links that succeeded or
failed, linking its aliases is all or nothing, and doing it twice is the same as doing it once. -/
theorem linksExactly_built (calls : List BuildCall) : (built calls).LinksExactly :=
  (loaded_built calls).linksExactly

end Registry

end ReleaseFlags
