import ReleaseFlags.Proofs.Resolution.Directories

/-!
# What errors blame

An error of resolving a name speaks of a release config, which need not be the one of the name: it
passes unchanged through all the configs above.  What the error says is true of a config that can be
reached along the edges to parents and build variant configs (`Registry.Blames`), unless it reports
that a name leads nowhere or that configs inherit each other in a circle (`blame_of_generate`).
-/

namespace ReleaseFlags

namespace Registry

open Relation

variable {registry : Registry} {config : ReleaseConfig} {e : Error}

/-- What the error says is true of the config; errors that do not speak of one blame none. -/
def Blames (registry : Registry) (config : ReleaseConfig) : Error → Prop
  | .undefinedFlag flag path => registry.flags.get? flag = none ∧
      ∃ value ∈ config.ownValues, value.name = flag ∧ value.path = path
  | .setBeforeDeclare flag declaredIn path => ∃ declared index,
      registry.flags.get? flag = some declared ∧ declared.declarationIndex = some index ∧
      registry.directories[index]? = some declaredIn ∧
      ∃ c ∈ config.contributions, c.index < index ∧
        ∃ value ∈ c.values, value.name = flag ∧ value.path = path
  | .nonManualInRoot flag path => config.name = rootName ∧
      (∃ declared, registry.flags.get? flag = some declared ∧
        declared.declaration.workflow ≠ .manual) ∧
      ∃ value ∈ config.ownValues, value.name = flag ∧ value.path = path
  | .aconfigFlagsOnly name flag path => config.name = name ∧ config.aconfigFlagsOnly = true ∧
      flag ≠ KnownFlag.extraReleaseConfigs ∧
      ∃ value ∈ config.ownValues, value.name = flag ∧ value.path = path
  | .inheritFromAlias name aliasName => config.name = name ∧ isBuildPrefix name = true ∧
      aliasName ∈ registry.parentNames config ∧
      ∃ target, registry.aliases.get? aliasName = some target
  | .inheritanceKindMismatch name kind parent parentKind => config.name = name ∧
      config.kind = kind ∧ kind = .buildVariant ∧ parentKind ≠ kind ∧
      ∃ other, registry.Parent config other ∧ other.name = parent ∧ other.kind = parentKind
  | .exclusiveDirectories name first second => config.name = name ∧ first ≠ second ∧
      (∃ c ∈ config.contributions, registry.directories[c.index]? = some first) ∧
      ∃ c ∈ config.contributions, registry.directories[c.index]? = some second
  | .flag (.redacted flag path) => ∃ value ∈ config.versionAssignment :: config.ownValues,
      value.name = flag ∧ value.path = path ∧ value.redacted = false
  | .buildVariantUnavailable name _ _ => config.name = name ∧
      registry.options.policy = .required
  | _ => False

/-- An error that reports what a config does wrong blames it, if it is not about looking up a
parent. -/
lemma Reached.blames_of_violation (h : registry.Reached)
    (hviolation : registry.Violation config e) :
    (∃ name, registry.config name = .error e) ∨ registry.Blames config e := by
  cases hviolation with
  | parent hname hlookup => exact .inl ⟨_, hlookup⟩
  | inheritsAlias hname hbuild halias =>
    exact .inr ⟨rfl, hbuild, hname, Option.isSome_iff_exists.mp halias⟩
  | kind hparent hkind hrestricts =>
    have hvariant : config.kind = .buildVariant := by
      simpa [ReleaseKind.restrictsInheritance] using hrestricts
    exact .inr ⟨rfl, rfl, hvariant, hkind.symm, _, hparent, rfl, rfl⟩
  | undefined hvalue hflag => exact .inr ⟨hflag, _, hvalue, rfl, rfl⟩
  | early hc hvalue hflag hindex hlt =>
    -- the index is the place of a directory, so the error names that one
    have hdirectory := List.getElem?_eq_getElem (h.index_lt hflag hindex)
    rw [hdirectory, Option.getD_some]
    exact .inr ⟨_, _, hflag, hindex, hdirectory, _, hc, hlt, _, hvalue, rfl, rfl⟩
  | automatic hroot hvalue hflag hworkflow =>
    exact .inr ⟨hroot, ⟨_, hflag, hworkflow⟩, _, hvalue, rfl, rfl⟩
  | flagsOnly honly hvalue hname => exact .inr ⟨rfl, honly, hname, _, hvalue, rfl, rfl⟩
  | redacted hvalue hplain => exact .inr ⟨_, hvalue, rfl, rfl, hplain⟩
  | exclusive hfirst hsecond hne =>
    exact .inr ⟨rfl, hne, mem_valueDirectories.mp hfirst, mem_valueDirectories.mp hsecond⟩
  | unavailable hpolicy => exact .inr ⟨rfl, hpolicy⟩

/-- Looking up a name fails because it leads round in a circle or nowhere. -/
lemma not_found_of_lookup {start : String} {allowMissing : Bool}
    (h : registry.lookup start allowMissing = .error e) :
    (∃ looping trace, e = .aliasLoop looping trace) ∨
      ∃ missing trace, e = .configNotFound missing trace :=
  (lookup_eq_error h).imp_left fun ⟨trace, htrace⟩ => ⟨start, trace, htrace⟩

/-- If a name or alias cannot be resolved, some name leads round in a circle or nowhere, or configs
inherit each other in a circle, or the error blames a config that can be reached from that of the
name. -/
theorem blame_of_generate (h : registry.Reached) {name : String}
    (herror : ((generate name).run registry).1 = .error e) :
    ((∃ looping trace, e = .aliasLoop looping trace) ∨
        ∃ missing trace, e = .configNotFound missing trace) ∨
      (∃ looping, e = .inheritanceLoop looping) ∨
      ∃ config other, registry.configStrict name = .ok config ∧
        ReflTransGen registry.Edge config other ∧ registry.Blames other e := by
  rw [h.coherent.generate_eq] at herror
  rcases bind_eq_error.mp herror with he | ⟨config, hconfig, he⟩
  · exact .inl (not_found_of_lookup he)
  · rcases resolveAnew_eq_error (fun _ _ => h.flags_named) he with hloop | ⟨other, hpath, hfails⟩
    · exact .inr (.inl hloop)
    · rcases h.blames_of_violation hfails with ⟨parent, he⟩ | hblames
      · exact .inl (not_found_of_lookup he)
      · exact .inr (.inr ⟨config, other, hconfig, hpath, hblames⟩)

/-! ### A sample -/

/-- Two config directories: `b` sets a flag in the first one that only the second one declares, and
`a` inherits `b`. -/
def misplaced : Source where
  tree := {
    nodes := ⟨[
      ("/d", .directory),
      ("/d/flag_values", .directory),
      ("/d/flag_values/b", .directory),
      ("/d/flag_values/b/F.toml", .file (some "name='F'\nvalue=\x7bbool_value=true\x7d")),
      ("/d/release_config_map.toml", .file (some "")),
      ("/d/release_configs", .directory),
      ("/d/release_configs/a.toml", .file (some "name='a'\ninherits=['b']")),
      ("/d/release_configs/b.toml", .file (some "name='b'")),
      ("/e", .directory),
      ("/e/flag_declarations", .directory),
      ("/e/flag_declarations/F.toml", .file (some "name='F'\nnamespace=''")),
      ("/e/release_config_map.toml", .file (some ""))], by
        unfold Increasing
        decide +kernel⟩
    workingDirectory := "" }
  root := ⟨""⟩

/-- Resolving `a` fails, and the error blames a config that `a` reaches. -/
theorem blame_of_generate_misplaced : ∃ scanned, misplaced.scan ["d", "e"] = .ok scanned ∧
    let registry := { scanned with allowMissing := false }.setOptions .default
    let e := Error.setBeforeDeclare "F" "e" "d/flag_values/b/F.toml"
    registry.Reached ∧ ((generate "a").run registry).1 = .error e ∧
      ∃ config other, registry.configStrict "a" = .ok config ∧
        ReflTransGen registry.Edge config other ∧ registry.Blames other e := by
  have hfails : (misplaced.scan ["d", "e"]).toOption.any (fun scanned =>
      failsWith "a" (.setBeforeDeclare "F" "e" "d/flag_values/b/F.toml")
        ({ scanned with allowMissing := false }.setOptions .default)) = true := by
    decide +kernel
  obtain ⟨scanned, hscan, hfails⟩ := exists_of_toOption hfails
  have hrun := eq_of_failsWith hfails
  have hreached : ({ scanned with allowMissing := false }.setOptions .default).Reached :=
    ⟨misplaced, ["d", "e"], scanned, false, .default, [], hscan, rfl⟩
  refine ⟨scanned, hscan, hreached, hrun, ?_⟩
  rcases blame_of_generate hreached hrun with (⟨_, _, he⟩ | ⟨_, _, he⟩) | ⟨_, he⟩ | hblames
  · cases he
  · cases he
  · cases he
  · exact hblames

end Registry

end ReleaseFlags
