import ReleaseFlags.Proofs.Components
import ReleaseFlags.Proofs.Resolution.Merges

/-!
# How resolving a config fails

Compiling a config fails because a config that it asks for does, or because the config itself breaks
a rule, and then the error names what breaks it (`Violation`).  The flags of all configs are those
that are declared, so merging one never misses a flag; and a value is only ever assigned to the flag
of its name.  So an error of a whole walk is that of a config which can be reached, or reports a
loop (`resolveAnew_eq_error`).
-/

namespace ReleaseFlags

/-- The errors that report what the config itself does wrong. -/
inductive Registry.Violation (registry : Registry) (config : ReleaseConfig) : Error → Prop
  /-- A parent is not found. -/
  | parent {name : String} {e : Error} (hname : name ∈ registry.parentNames config)
      (hlookup : registry.config name = .error e) : Violation registry config e
  /-- A config tied to a platform build inherits an alias. -/
  | inheritsAlias {name : String} (hname : name ∈ registry.parentNames config)
      (hbuild : isBuildPrefix config.name = true) (halias : registry.aliases.contains name = true) :
      Violation registry config (.inheritFromAlias config.name name)
  /-- A parent is of a kind that may not be inherited. -/
  | kind {parent : ReleaseConfig} (hparent : registry.Parent config parent)
      (hkind : config.kind ≠ parent.kind) (hrestricts : config.kind.restrictsInheritance = true) :
      Violation registry config
        (.inheritanceKindMismatch config.name config.kind parent.name parent.kind)
  /-- An own value is for a flag that is not declared. -/
  | undefined {value : Assignment} (hvalue : value ∈ config.ownValues)
      (hflag : registry.flags.get? value.name = none) :
      Violation registry config (.undefinedFlag value.name value.path)
  /-- An own value is for a flag that a later directory declares. -/
  | early {c : Contribution} {value : Assignment} {flag : FlagState} {index : Nat}
      (hc : c ∈ config.contributions) (hvalue : value ∈ c.values)
      (hflag : registry.flags.get? value.name = some flag)
      (hindex : flag.declarationIndex = some index) (hlt : c.index < index) :
      Violation registry config
        (.setBeforeDeclare value.name (registry.directories[index]?.getD "") value.path)
  /-- The root config sets a flag that is not maintained by hand. -/
  | automatic {value : Assignment} {flag : FlagState} (hroot : config.name = rootName)
      (hvalue : value ∈ config.ownValues) (hflag : registry.flags.get? value.name = some flag)
      (hworkflow : flag.declaration.workflow ≠ .manual) :
      Violation registry config (.nonManualInRoot value.name value.path)
  /-- A config for value sets only sets a flag. -/
  | flagsOnly {value : Assignment} (honly : config.aconfigFlagsOnly = true)
      (hvalue : value ∈ config.ownValues) (hname : value.name ≠ KnownFlag.extraReleaseConfigs) :
      Violation registry config (.aconfigFlagsOnly config.name value.name value.path)
  /-- An own value, or the platform version, is a plain one for a redacted flag. -/
  | redacted {value : Assignment} (hvalue : value ∈ config.versionAssignment :: config.ownValues)
      (hplain : value.redacted = false) :
      Violation registry config (.flag (.redacted value.name value.path))
  /-- Two directories that exclude each other contribute. -/
  | exclusive {first second : String}
      (hfirst : first ∈ registry.directoriesAt config.valueIndices)
      (hsecond : second ∈ registry.directoriesAt config.valueIndices) (hne : first ≠ second) :
      Violation registry config (.exclusiveDirectories config.name first second)
  /-- The build variant config is required. -/
  | unavailable {variant reason : String} (hpolicy : registry.options.policy = .required) :
      Violation registry config (.buildVariantUnavailable config.name variant reason)

variable {registry : Registry} {config parent : ReleaseConfig} {resolved : Resolved}
  {flags : Flags} {flag : FlagState} {working : Working} {c : Contribution} {value : Assignment}
  {e : Error}

/-! ### Own settings -/

/-- An assignment to the flag of its name fails only if it is a plain one for a redacted flag. -/
lemma FlagState.assign_eq_error {e : FlagError} (hname : value.name = flag.name)
    (h : flag.assign value = .error e) :
    value.redacted = false ∧ e = .redacted value.name value.path := by
  simp only [assign, hname, ne_eq, not_true_eq_false, if_false] at h
  split at h
  · cases h
  · next hplain =>
    split at h
    · cases h
      exact ⟨Bool.eq_false_iff.mpr hplain, by rw [hname]⟩
    · cases h

namespace Registry

/-- The flags are what the declared ones may become. -/
lemma violation_of_assign (hnamed : registry.flags.Named) (hbecomes : registry.flags.Becomes flags)
    (hvalue : value ∈ config.versionAssignment :: config.ownValues)
    (hflag : flags.get? value.name = some flag)
    (h : (flag.assign value).mapError Error.flag = .error e) : registry.Violation config e := by
  obtain ⟨_, hassign, rfl⟩ := mapError_eq_error.mp h
  have hname := hbecomes.sameDeclarations.named hnamed value.name flag hflag
  obtain ⟨hplain, rfl⟩ := FlagState.assign_eq_error hname.symm hassign
  exact .redacted hvalue hplain

lemma violation_of_checkMaySet (hbecomes : registry.flags.Becomes flags)
    (hc : c ∈ config.contributions) (hvalue : value ∈ c.values)
    (hflag : flags.get? value.name = some flag)
    (h : c.checkMaySet registry config flag value = .error e) : registry.Violation config e := by
  obtain ⟨base, hbase, hlater⟩ := hbecomes.exists_before hflag
  have hown : value ∈ config.ownValues := List.mem_flatMap.mpr ⟨c, hc, hvalue⟩
  have hworkflow (h : (if config.name = rootName ∧ flag.declaration.workflow ≠ .manual then
      throw (.nonManualInRoot value.name value.path) else pure () : Except Error Unit) = .error e) :
      registry.Violation config e := by
    obtain ⟨⟨hroot, hworkflow⟩, rfl⟩ := ite_throw_eq_error.mp h
    rw [hlater.declaration] at hworkflow
    exact .automatic hroot hown hbase hworkflow
  simp only [Contribution.checkMaySet] at h
  split at h
  · next index hindex =>
    split at h
    · next hlt =>
      cases h
      exact .early hc hvalue hbase (hlater.declarationIndex ▸ hindex) hlt
    · exact hworkflow h
  · exact hworkflow h

lemma violation_of_applyValue (hnamed : registry.flags.Named)
    (hbecomes : registry.flags.Becomes flags) (hc : c ∈ config.contributions)
    (hvalue : value ∈ c.values) (h : c.applyValue registry config flags value = .error e) :
    registry.Violation config e := by
  have hown : value ∈ config.ownValues := List.mem_flatMap.mpr ⟨c, hc, hvalue⟩
  simp only [Contribution.applyValue] at h
  split at h
  · next hnone =>
    cases h
    exact .undefined hown (hbecomes.get?_eq_none hnone)
  · next flag hflag =>
    rcases bind_eq_error.mp h with h | ⟨_, -, h⟩
    · exact violation_of_checkMaySet hbecomes hc hvalue hflag h
    · rcases bind_eq_error.mp h with h | ⟨_, -, h⟩
      · exact violation_of_assign hnamed hbecomes (List.mem_cons_of_mem _ hown) hflag h
      · cases h

lemma violation_of_apply (hnamed : registry.flags.Named)
    (hbecomes : registry.flags.Becomes flags) (hc : c ∈ config.contributions)
    (h : c.apply registry config flags = .error e) : registry.Violation config e := by
  rcases bind_eq_error.mp h with h | ⟨_, -, h⟩
  · simp only [Contribution.checkFlagsOnly] at h
    split at h
    · next value hfind =>
      split at h
      · next honly =>
        cases h
        have hvalue := List.mem_of_find?_eq_some hfind
        have hname : value.name ≠ KnownFlag.extraReleaseConfigs := by
          simpa using List.find?_some hfind
        exact .flagsOnly honly (List.mem_flatMap.mpr ⟨c, hc, hvalue⟩) hname
      · cases h
    · cases h
  · obtain ⟨value, hvalue, flags', hlater, h⟩ := exists_of_foldlM_eq_error
      (P := fun flags' => registry.flags.Becomes flags')
      (fun _ _ _ _ hlater hok => hlater.trans (becomes_of_applyValue hok))
      (hbecomes.trans (becomes_addValueSets c flags)) h
    exact violation_of_applyValue hnamed hlater hc hvalue h

lemma violation_of_setPlatformVersion (hnamed : registry.flags.Named)
    (hbecomes : registry.flags.Becomes flags) (h : config.setPlatformVersion flags = .error e) :
    registry.Violation config e := by
  simp only [ReleaseConfig.setPlatformVersion] at h
  split at h
  · cases h
  · split at h
    · cases h
    · next flag hflag =>
      split at h
      · cases h
      · rcases bind_eq_error.mp h with h | ⟨_, -, h⟩
        · have hversion : config.versionAssignment ∈ config.versionAssignment :: config.ownValues :=
            List.mem_cons_self
          exact violation_of_assign hnamed hbecomes hversion hflag h
        · cases h

/-- The own settings fail where one of them breaks a rule. -/
lemma violation_of_applyOwn (hnamed : registry.flags.Named)
    (hbecomes : registry.flags.Becomes working.flags)
    (h : registry.applyOwn config working = .error e) : registry.Violation config e := by
  rcases bind_eq_error.mp h with h | ⟨flags, hversion, h⟩
  · exact violation_of_setPlatformVersion hnamed hbecomes h
  · rcases bind_eq_error.mp h with h | ⟨_, -, h⟩
    · obtain ⟨c, hc, flags', hlater, h⟩ := exists_of_foldlM_eq_error
        (P := fun flags' => registry.flags.Becomes flags')
        (fun _ _ _ _ hlater hok => hlater.trans (becomes_of_apply hok))
        (hbecomes.trans (becomes_of_setPlatformVersion hversion)) h
      exact violation_of_apply hnamed hlater hc h
    · cases h

/-! ### What is merged -/

/-- Merging fails only because of the kinds: no flag is missing, since the flags of both configs are
the declared ones. -/
lemma inherit_eq_error (hnamed : registry.flags.Named)
    (hbecomes : registry.flags.Becomes working.flags)
    (hparent : registry.flags.Becomes resolved.flags)
    (h : working.inherit config parent resolved = .error e) :
    config.kind ≠ parent.kind ∧ config.kind.restrictsInheritance = true ∧
      e = .inheritanceKindMismatch config.name config.kind parent.name parent.kind := by
  simp only [Working.inherit] at h
  split at h
  · next hkind =>
    cases h
    exact ⟨hkind.1, hkind.2, rfl⟩
  · exfalso
    rcases bind_eq_error.mp h with h | ⟨_, -, h⟩
    · obtain ⟨inherited, hinherited, flags, hlater, h⟩ := exists_of_foldlM_eq_error
        (P := fun flags => registry.flags.Becomes flags)
        (fun flags inherited _ flags' hlater hok => by
          obtain ⟨flag, hget, rfl⟩ := inheritFlag_eq_ok hok
          exact hlater.trans (.insert hget (FlagState.becomes_inherit flag inherited)))
        hbecomes h
      obtain ⟨name, hget⟩ := NameMap.mem_values.mp hinherited
      obtain ⟨base, hbase, -⟩ := hparent.exists_before hget
      obtain ⟨flag, hflag, -⟩ := hlater.exists_after hbase
      rw [← hparent.sameDeclarations.named hnamed name inherited hget] at hflag
      simp only [Working.inheritFlag, hflag] at h
      cases h
    · cases h

lemma violation_of_parentOf {name : String} (hname : name ∈ registry.parentNames config)
    (h : registry.parentOf config name = .error e) : registry.Violation config e := by
  simp only [parentOf, Bool.and_eq_true] at h
  split at h
  · next hrefused =>
    cases h
    exact .inheritsAlias hname hrefused.1 hrefused.2
  · exact .parent hname h

lemma violation_of_variantFor (h : registry.variantFor config flags = .error e) :
    registry.Violation config e := by
  simp only [variantFor, variantOf] at h
  split at h
  · split at h
    · cases h
    · split at h
      · cases h
      · -- only where the variant is required is it an error that there is none
        split at h
        · split at h
          · cases h
          · next hpolicy =>
            cases h
            exact .unavailable hpolicy
        · split at h
          · cases h
          · split at h
            · cases h
            · next hpolicy =>
              cases h
              exact .unavailable hpolicy
  · cases h

/-! ### Freezing -/

/-- A directory that does not lie under the entry is passed over.  One that does is kept, if the one
that was kept before lies there too. -/
lemma checkPrefix_eq_ok {name directory entry : String} {first first' : Option String} :
    checkPrefix name directory first entry = .ok first' ↔
      ¬ LiesUnder directory entry ∧ first' = first ∨
        LiesUnder directory entry ∧ (∀ other, first = some other → LiesUnder other entry) ∧
          first' = some directory := by
  simp only [checkPrefix, ← startsWithDir_ofText]
  by_cases hunder : (Path.ofText directory).startsWithDir entry = true
  · cases first with
    | none => simp [hunder, @eq_comm _ first']
    | some other =>
      by_cases hother : (Path.ofText other).startsWithDir entry = true
      · simp [hunder, hother, @eq_comm _ first']
      · simp [hunder, hother]
  · simp [hunder, @eq_comm _ first']

lemma checkPrefix_eq_error {name directory entry : String} {first : Option String} :
    checkPrefix name directory first entry = .error e ↔ LiesUnder directory entry ∧
      ∃ other, first = some other ∧ ¬ LiesUnder other entry ∧
        e = .exclusiveDirectories name other directory := by
  simp only [checkPrefix, ← startsWithDir_ofText]
  by_cases hunder : (Path.ofText directory).startsWithDir entry = true
  · cases first with
    | none => simp [hunder]
    | some other =>
      by_cases hother : (Path.ofText other).startsWithDir entry = true
      · simp [hunder, hother]
      · simp [hunder, hother, @eq_comm _ e]
  · simp [hunder]

/-- Directories are refused only if one of them lies under an entry, and another one under an entry
where the first one does not. -/
lemma checkExclusive_eq_error {name : String} {entries directories : List String}
    (h : checkExclusive name entries directories = .error e) :
    ∃ first ∈ directories, ∃ second ∈ directories, e = .exclusiveDirectories name first second ∧
      ∃ entry ∈ entries, LiesUnder first entry ∧
        ∃ other ∈ entries, LiesUnder second other ∧ ¬ LiesUnder first other := by
  -- the directory that is kept is one of the list and lies under some entry
  let Kept (first : Option String) := ∀ directory, first = some directory →
    directory ∈ directories ∧ ∃ entry ∈ entries, LiesUnder directory entry
  have hkept (directory : String) (hdirectory : directory ∈ directories) (first : Option String)
      (entry : String) (hentry : entry ∈ entries) (first' : Option String) (hfirst : Kept first)
      (hok : checkPrefix name directory first entry = .ok first') : Kept first' := by
    rcases checkPrefix_eq_ok.mp hok with ⟨-, rfl⟩ | ⟨hunder, -, rfl⟩
    · exact hfirst
    · rintro _ ⟨⟩
      exact ⟨hdirectory, entry, hentry, hunder⟩
  have hnone : Kept none := by
    rintro _ ⟨⟩
  rcases bind_eq_error.mp h with h | ⟨_, -, h⟩
  · obtain ⟨second, hsecond, between, hbetween, h⟩ := exists_of_foldlM_eq_error (P := Kept)
      (fun first directory hdirectory first' hfirst hok => foldlM_induction (P := fun _ => Kept)
        (fun _ entry s s' hentry hok hs => hkept directory hdirectory s entry hentry s' hs hok)
        hok hfirst) hnone h
    obtain ⟨other, hother, last, hlast, h⟩ := exists_of_foldlM_eq_error (P := Kept)
      (fun s entry hentry s' hs hok => hkept second hsecond s entry hentry s' hs hok) hbetween h
    obtain ⟨hunder, first, rfl, hnot, rfl⟩ := checkPrefix_eq_error.mp h
    obtain ⟨hfirst, entry, hentry, hfirst'⟩ := hlast first rfl
    exact ⟨first, hfirst, second, hsecond, rfl, entry, hentry, hfirst', other, hother, hunder, hnot⟩
  · cases h

lemma violation_of_freeze {inherits : List String}
    (h : working.freeze registry config inherits = .error e) : registry.Violation config e := by
  rcases bind_eq_error.mp h with h | ⟨_, -, h⟩
  · obtain ⟨first, hfirst, second, hsecond, rfl, _, -, -, _, -, hunder, hnot⟩ :=
      checkExclusive_eq_error h
    exact .exclusive hfirst hsecond fun heq => hnot (heq ▸ hunder)
  · cases h

/-! ### Compiling -/

open Relation

variable {f : ReleaseConfig → Except Error Resolved}

/-- Compiling fails because a config that may be inherited does, or because the config breaks a
rule. -/
theorem compile_eq_error (hnamed : registry.flags.Named)
    (hf : ∀ other r, f other = .ok r → registry.flags.Becomes r.flags)
    (h : registry.compile f config = .error e) :
    registry.Violation config e ∨ ∃ other, registry.Edge config other ∧ f other = .error e := by
  rcases bind_eq_error.mp h with h | ⟨merged, hmerged, h⟩
  · obtain ⟨name, hname, working, hlater, h⟩ := exists_of_foldlM_eq_error
      (P := fun working => registry.flags.Becomes working.flags)
      (fun _ _ _ _ hlater hok => by
        obtain ⟨_, _, -, -, hinherit⟩ := inheritParent_eq_ok.mp hok
        exact hlater.trans (becomes_of_inherit hinherit))
      (.refl _) h
    rcases bind_eq_error.mp h with h | ⟨parent, hfound, h⟩
    · exact .inl (violation_of_parentOf hname h)
    · have hparent : registry.Parent config parent := ⟨name, hname, config_of_parentOf hfound⟩
      rcases bind_eq_error.mp h with h | ⟨resolved, hok, h⟩
      · exact .inr ⟨parent, .inl hparent, h⟩
      · obtain ⟨hkind, hrestricts, rfl⟩ := inherit_eq_error hnamed hlater (hf parent resolved hok) h
        exact .inl (.kind hparent hkind hrestricts)
  obtain ⟨parents, -, hmerged⟩ := inheritParents_eq_ok.mp hmerged
  have hmerged := becomes_of_inheritAll hmerged
  rcases bind_eq_error.mp h with h | ⟨own, hown, h⟩
  · exact .inl (violation_of_applyOwn hnamed hmerged h)
  have hown := hmerged.trans (becomes_of_applyOwn hown)
  rcases bind_eq_error.mp h with h | ⟨final, -, h⟩
  · rcases bind_eq_error.mp h with h | ⟨found, hfound, h⟩
    · exact .inl (violation_of_variantFor h)
    · cases found with
      | none => cases h
      | some variant =>
        have happlies := variantFor_eq_some_iff.mp hfound
        rcases bind_eq_error.mp h with h | ⟨resolved, hok, h⟩
        · exact .inr ⟨variant, .inr happlies.variant, h⟩
        · -- a release may inherit configs of every kind
          obtain ⟨-, hrestricts, -⟩ := inherit_eq_error hnamed hown (hf variant resolved hok) h
          rw [happlies.release] at hrestricts
          cases hrestricts
  · exact .inl (violation_of_freeze h)

/-- A walk fails because a config that can be reached breaks a rule, or reports a loop. -/
theorem resolveAnew_eq_error (hnamed : registry.flags.Named) {depth : Nat} {active : List String}
    (h : registry.resolveAnew depth active config = .error e) :
    (∃ looping, e = .inheritanceLoop looping) ∨
      ∃ other, ReflTransGen registry.Edge config other ∧ registry.Violation other e := by
  induction depth generalizing active config with
  | zero =>
    rw [resolveAnew_zero] at h
    cases h
    exact .inl ⟨_, rfl⟩
  | succ depth ih =>
    by_cases hmem : config.name ∈ active
    · rw [resolveAnew_of_mem _ hmem] at h
      cases h
      exact .inl ⟨_, rfl⟩
    · rw [resolveAnew, if_neg hmem] at h
      have hanswers (other : ReleaseConfig) (r : Resolved) (hok : registry.resolveAnew depth
          (config.name :: active) other = .ok r) : registry.flags.Becomes r.flags :=
        (Resolves.of_ok hok).becomes
      rcases compile_eq_error hnamed hanswers h with hviolation | ⟨other, hedge, hother⟩
      · exact .inr ⟨config, .refl, hviolation⟩
      · rcases ih hother with hloop | ⟨last, hpath, hviolation⟩
        · exact .inl hloop
        · exact .inr ⟨last, .head hedge hpath, hviolation⟩

end Registry

end ReleaseFlags
