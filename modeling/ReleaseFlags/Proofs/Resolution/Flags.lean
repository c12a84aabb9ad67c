import ReleaseFlags.Proofs.Flag
import ReleaseFlags.Proofs.Resolution.Compile

/-!
# How the flags of a config come about

What each stage of compiling a config does to the flag of one name.  Merging a config merges
the state of the same flag there (`get?_of_inherit`); the own settings of the config are
assignments to the flag, in order (`assigns_of_applyOwn`).  The flags that are known, and their
declarations, are the same at every stage.
-/

namespace ReleaseFlags

variable {registry : Registry} {config parent : ReleaseConfig} {resolved : Resolved}
  {flags flags' flags'' : Flags} {working working' : Working} {name : String}

/-! ### Later flags -/

namespace Flags.Becomes

lemma insert {old flag : FlagState} (hget : flags.get? name = some old) (h : old.Becomes flag) :
    Flags.Becomes flags (NameMap.insert flags name flag) := by
  intro other
  rw [NameMap.get?_insert]
  split
  · next heq =>
    rw [heq, hget]
    exact .some h
  · exact Flags.Becomes.refl flags other

lemma modify {f : FlagState → FlagState} (h : ∀ flag : FlagState, flag.Becomes (f flag)) :
    Flags.Becomes flags (NameMap.modify flags name f) := by
  intro other
  by_cases heq : other = name
  · rw [heq, NameMap.get?_modify_self]
    cases flags.get? name with
    | none => exact .none
    | some flag => exact .some (h flag)
  · rw [NameMap.get?_modify_of_ne _ _ heq]
    exact Flags.Becomes.refl flags other

lemma foldlM {α : Type} {step : Flags → α → Except Error Flags} {items : List α}
    (hstep : ∀ flags a flags', step flags a = .ok flags' → Flags.Becomes flags flags')
    (h : items.foldlM step flags = .ok flags') : Flags.Becomes flags flags' :=
  foldlM_induction (P := fun _ => Flags.Becomes flags)
    (fun _ a s s' _ hok hbefore => hbefore.trans (hstep s a s' hok)) h (.refl flags)

end Flags.Becomes

/-! ### Merging a config -/

lemma inheritFlag_eq_ok {inherited : FlagState}
    (h : Working.inheritFlag name flags inherited = .ok flags') :
    ∃ flag, flags.get? inherited.name = some flag ∧
      flags' = flags.insert inherited.name (flag.inherit inherited) := by
  simp only [Working.inheritFlag] at h
  split at h
  · cases h
  · next flag hget =>
    cases h
    exact ⟨flag, hget, rfl⟩

/-- What merging a config does. -/
lemma inherit_eq_ok (h : working.inherit config parent resolved = .ok working') :
    (config.kind.restrictsInheritance = true → config.kind = parent.kind) ∧
      resolved.flags.values.foldlM (Working.inheritFlag parent.name) working.flags =
        .ok working'.flags ∧
      working'.filesUsed = working.filesUsed.union resolved.filesUsed := by
  simp only [Working.inherit] at h
  split at h
  · cases h
  · next hkind =>
    obtain ⟨flags, hflags, h⟩ := bind_eq_ok.mp h
    cases h
    exact ⟨fun hrestricts => Decidable.byContradiction fun hne => hkind ⟨hne, hrestricts⟩,
      hflags, rfl⟩

lemma becomes_of_inherit (h : working.inherit config parent resolved = .ok working') :
    working.flags.Becomes working'.flags := by
  refine .foldlM (fun flags inherited flags' hstep => ?_) (inherit_eq_ok h).2.1
  obtain ⟨flag, hget, rfl⟩ := inheritFlag_eq_ok hstep
  exact .insert hget (FlagState.becomes_inherit flag inherited)

/-- Merging flags one by one changes each flag by its own namesake only. -/
lemma get?_of_inheritFlags (entries : List (String × FlagState)) {parentName : String}
    (hnodup : (entries.map Prod.fst).Nodup) (hnamed : ∀ e ∈ entries, e.2.name = e.1)
    (h : (entries.map Prod.snd).foldlM (Working.inheritFlag parentName) flags = .ok flags') :
    flags'.get? name = (flags.get? name).map fun flag => flag.merge (entries.lookup name) := by
  induction entries generalizing flags with
  | nil =>
    cases h
    simp [FlagState.merge]
  | cons head rest ih =>
    obtain ⟨key, inherited⟩ := head
    rw [List.map_cons, List.foldlM_cons] at h
    obtain ⟨between, hfirst, h⟩ := bind_eq_ok.mp h
    obtain ⟨flag, hget, rfl⟩ := inheritFlag_eq_ok hfirst
    obtain ⟨habsent, hnodup⟩ := List.nodup_cons.mp hnodup
    have hkey : inherited.name = key := hnamed _ List.mem_cons_self
    rw [ih hnodup (fun e he => hnamed e (List.mem_cons_of_mem _ he)) h, hkey,
      NameMap.get?_insert, lookup_cons_ite]
    by_cases heq : name = key
    · -- the other entries have other names
      have hlookup : rest.lookup name = none := by
        rw [List.lookup_eq_none_iff]
        intro e he
        have hne : name ≠ e.1 := fun hname =>
          habsent (heq ▸ hname ▸ List.mem_map.mpr ⟨e, he, rfl⟩)
        simpa using hne
      rw [if_pos heq, if_pos heq, hlookup, heq, ← hkey, hget]
      rfl
    · rw [if_neg heq, if_neg heq]

/-- Merging a config merges the state of the same flag there. -/
theorem get?_of_inherit (hnamed : resolved.flags.Named)
    (h : working.inherit config parent resolved = .ok working') :
    working'.flags.get? name =
      (working.flags.get? name).map fun flag => flag.merge (resolved.flags.get? name) := by
  refine get?_of_inheritFlags resolved.flags.entries ?_ ?_ (inherit_eq_ok h).2.1
  · exact NameMap.nodup_names resolved.flags
  · intro e he
    exact hnamed e.1 e.2 (NameMap.mem_entries.mp he)

lemma becomes_of_inheritAll {inherited : List (ReleaseConfig × Resolved)}
    (h : working.inheritAll config inherited = .ok working') :
    working.flags.Becomes working'.flags :=
  foldlM_induction (P := fun _ state => working.flags.Becomes state.flags)
    (fun _ _ _ _ _ hok hbefore => hbefore.trans (becomes_of_inherit hok)) h (.refl working.flags)

/-- Merging several configs merges the states of the same flag there, in their order. -/
theorem get?_of_inheritAll {inherited : List (ReleaseConfig × Resolved)}
    (hnamed : ∀ e ∈ inherited, e.2.flags.Named)
    (h : working.inheritAll config inherited = .ok working') :
    working'.flags.get? name =
      (working.flags.get? name).map fun flag => flag.mergeAll name (inherited.map Prod.snd) := by
  induction inherited generalizing working with
  | nil =>
    cases h
    simp [FlagState.mergeAll]
  | cons first rest ih =>
    obtain ⟨between, hfirst, h⟩ := bind_eq_ok.mp h
    rw [ih (fun e he => hnamed e (List.mem_cons_of_mem _ he)) h,
      get?_of_inherit (hnamed first List.mem_cons_self) hfirst, Option.map_map]
    rfl

/-! ### Own settings -/

/-- What the assignments make of the flag of a name in the first flags is its state in the
second ones. -/
def Assigns (assignments : List Assignment) (name : String) (flags flags' : Flags) : Prop :=
  ∀ flag, flags.get? name = some flag →
    ∃ flag', flags'.get? name = some flag' ∧
      assignments.foldlM FlagState.assign flag = .ok flag'

lemma Assigns.of_eq (h : flags'.get? name = flags.get? name) : Assigns [] name flags flags' :=
  fun flag hget => ⟨flag, h.trans hget, rfl⟩

lemma Assigns.append {first second : List Assignment} (h : Assigns first name flags flags')
    (h' : Assigns second name flags' flags'') : Assigns (first ++ second) name flags flags'' := by
  intro flag hget
  obtain ⟨flag₁, hget₁, hfirst⟩ := h flag hget
  obtain ⟨flag₂, hget₂, hsecond⟩ := h' flag₁ hget₁
  refine ⟨flag₂, hget₂, ?_⟩
  rw [List.foldlM_append]
  exact bind_eq_ok.mpr ⟨flag₁, hfirst, hsecond⟩

/-- What the items of a list assign to a flag, one after the other. -/
lemma Assigns.foldlM {α : Type} {step : Flags → α → Except Error Flags}
    {assignments : α → List Assignment} {items : List α}
    (hstep : ∀ flags a flags', step flags a = .ok flags' →
      Assigns (assignments a) name flags flags')
    (h : items.foldlM step flags = .ok flags') :
    Assigns (items.flatMap assignments) name flags flags' := by
  refine foldlM_induction (P := fun done => Assigns (done.flatMap assignments) name flags)
    (fun done a s s' _ hok hdone => ?_) h (.of_eq rfl)
  rw [List.flatMap_append, List.flatMap_singleton]
  exact hdone.append (hstep s a s' hok)

namespace ReleaseConfig

/-- The assignment of the platform version by a config that is tied to a platform build. -/
def versionAssignment (config : ReleaseConfig) : Assignment :=
  .plain ((config.contributions.head?.map Contribution.path).getD engineSource)
    KnownFlag.platformVersion (Value.unmarshal (platformVersion config.name))

/-- The assignment of the platform version to the flag of a name, when it has reached a value:
only if the config is tied to a platform build, the flag is the one for the version, and it does
not have the right value already. -/
def versionAssignments (config : ReleaseConfig) (name : String) (reached : Value) :
    List Assignment :=
  if isBuildPrefix config.name = true ∧ name = KnownFlag.platformVersion ∧
      reached.marshal ≠ platformVersion config.name then [config.versionAssignment]
  else []

/-- The values that the contributions of the config give, in the order of the directories and
their files. -/
def ownValues (config : ReleaseConfig) : List Assignment :=
  config.contributions.flatMap Contribution.values

/-- What the contributions of the config assign to the flag of a name, in the order of the
directories and their files. -/
def ownAssignments (config : ReleaseConfig) (name : String) : List Assignment :=
  config.contributions.flatMap fun c => c.values.filter fun value => value.name = name

end ReleaseConfig

/-- What setting the platform version does. -/
lemma setPlatformVersion_eq_ok (h : config.setPlatformVersion flags = .ok flags') :
    flags' = flags ∧ (∀ flag, flags.get? KnownFlag.platformVersion = some flag →
        config.versionAssignments KnownFlag.platformVersion flag.value = []) ∨
      ∃ flag flag', flags.get? KnownFlag.platformVersion = some flag ∧
        config.versionAssignments KnownFlag.platformVersion flag.value =
          [config.versionAssignment] ∧
        flag.assign config.versionAssignment = .ok flag' ∧
        flags' = flags.insert KnownFlag.platformVersion flag' := by
  simp only [ReleaseConfig.setPlatformVersion] at h
  split at h
  · next hbuild =>
    cases h
    refine .inl ⟨rfl, fun flag _ => if_neg fun hversion => ?_⟩
    simp [hversion.1] at hbuild
  · next hbuild =>
    rw [Bool.not_eq_true, Bool.not_eq_false'] at hbuild
    split at h
    · next hnone =>
      cases h
      refine .inl ⟨rfl, fun flag hget => ?_⟩
      rw [hnone] at hget
      cases hget
    · next flag hget =>
      split at h
      · next hmarshal =>
        cases h
        refine .inl ⟨rfl, fun other hother => if_neg fun hversion => ?_⟩
        rw [hget] at hother
        cases hother
        exact hversion.2.2 hmarshal
      · next hmarshal =>
        obtain ⟨flag', hassign, h⟩ := bind_eq_ok.mp h
        cases h
        exact .inr ⟨flag, flag', hget, if_pos ⟨hbuild, rfl, hmarshal⟩,
          mapError_eq_ok.mp hassign, rfl⟩

lemma becomes_of_setPlatformVersion (h : config.setPlatformVersion flags = .ok flags') :
    flags.Becomes flags' := by
  rcases setPlatformVersion_eq_ok h with ⟨rfl, -⟩ | ⟨flag, flag', hget, -, hassign, rfl⟩
  · exact .refl _
  · exact .insert hget (FlagState.becomes_of_assign hassign)

lemma get?_of_setPlatformVersion (hname : name ≠ KnownFlag.platformVersion)
    (h : config.setPlatformVersion flags = .ok flags') :
    flags'.get? name = flags.get? name := by
  rcases setPlatformVersion_eq_ok h with ⟨rfl, -⟩ | ⟨-, new, -, -, -, rfl⟩
  · rfl
  · exact NameMap.get?_insert_of_ne _ _ hname

lemma assigns_of_setPlatformVersion (h : config.setPlatformVersion flags = .ok flags')
    {flag : FlagState} (hget : flags.get? name = some flag) :
    Assigns (config.versionAssignments name flag.value) name flags flags' := by
  by_cases hname : name = KnownFlag.platformVersion
  · subst hname
    rcases setPlatformVersion_eq_ok h with ⟨rfl, hnone⟩ | ⟨old, new, hold, hversion, hassign, rfl⟩
    · rw [hnone flag hget]
      exact .of_eq rfl
    · obtain rfl : old = flag := Option.some.inj (hold.symm.trans hget)
      rw [hversion]
      intro other hother
      obtain rfl : other = old := Option.some.inj (hother.symm.trans hold)
      refine ⟨new, NameMap.get?_insert_self _ _ _, ?_⟩
      rw [List.foldlM_cons]
      exact bind_eq_ok.mpr ⟨new, hassign, rfl⟩
  · have hnone : config.versionAssignments name flag.value = [] :=
      if_neg fun hversion => hname hversion.2.1
    rw [hnone]
    exact .of_eq (get?_of_setPlatformVersion hname h)

lemma applyValue_eq_ok {c : Contribution} {value : Assignment}
    (h : c.applyValue registry config flags value = .ok flags') :
    ∃ flag flag', flags.get? value.name = some flag ∧
      c.checkMaySet registry config flag value = .ok () ∧ flag.assign value = .ok flag' ∧
        flags' = flags.insert value.name flag' := by
  simp only [Contribution.applyValue] at h
  split at h
  · cases h
  · next flag hget =>
    obtain ⟨⟨⟩, hmay, h⟩ := bind_eq_ok.mp h
    obtain ⟨flag', hassign, h⟩ := bind_eq_ok.mp h
    cases h
    exact ⟨flag, flag', hget, hmay, mapError_eq_ok.mp hassign, rfl⟩

lemma apply_eq_ok {c : Contribution} (h : c.apply registry config flags = .ok flags') :
    c.checkFlagsOnly config = .ok () ∧
      c.values.foldlM (c.applyValue registry config) (c.addValueSets flags) = .ok flags' := by
  obtain ⟨⟨⟩, honly, h⟩ := bind_eq_ok.mp h
  exact ⟨honly, h⟩

lemma applyOwn_eq_ok (h : registry.applyOwn config working = .ok working') :
    ∃ flags, config.setPlatformVersion working.flags = .ok flags ∧
      config.contributions.foldlM (Contribution.apply registry config) flags =
        .ok working'.flags ∧
      working'.filesUsed = if (registry.parentNames config).isEmpty
        then working.filesUsed.union registry.filesUsed else working.filesUsed := by
  obtain ⟨flags, hversion, h⟩ := bind_eq_ok.mp h
  obtain ⟨flags', hown, h⟩ := bind_eq_ok.mp h
  cases h
  exact ⟨flags, hversion, hown, rfl⟩

lemma becomes_addValueSets (c : Contribution) (flags : Flags) :
    flags.Becomes (c.addValueSets flags) :=
  .modify fun _ => ⟨rfl, rfl, List.prefix_append _ _, id⟩

lemma becomes_of_applyValue {c : Contribution} {value : Assignment}
    (h : c.applyValue registry config flags value = .ok flags') : flags.Becomes flags' := by
  obtain ⟨flag, flag', hget, -, hassign, rfl⟩ := applyValue_eq_ok h
  exact .insert hget (FlagState.becomes_of_assign hassign)

lemma becomes_of_apply {c : Contribution} (h : c.apply registry config flags = .ok flags') :
    flags.Becomes flags' :=
  (becomes_addValueSets c flags).trans
    (.foldlM (fun _ _ _ => becomes_of_applyValue) (apply_eq_ok h).2)

lemma becomes_of_applyOwn (h : registry.applyOwn config working = .ok working') :
    working.flags.Becomes working'.flags := by
  obtain ⟨flags, hversion, hown, -⟩ := applyOwn_eq_ok h
  exact (becomes_of_setPlatformVersion hversion).trans
    (.foldlM (fun _ _ _ => becomes_of_apply) hown)

/-- Each value is for the flag of the name or leaves it alone. -/
lemma filter_name_eq_flatMap (name : String) (values : List Assignment) :
    (values.filter fun value => value.name = name) =
      values.flatMap fun value => if value.name = name then [value] else [] := by
  induction values with
  | nil => rfl
  | cons value rest ih =>
    rw [List.filter_cons, List.flatMap_cons, ih]
    by_cases heq : value.name = name
    · simp [heq]
    · simp [heq]

/-- What a contribution does to a flag: the values for it are assigned in order. -/
lemma assigns_of_apply {c : Contribution} (hname : name ≠ KnownFlag.aconfigValueSets)
    (h : c.apply registry config flags = .ok flags') :
    Assigns (c.values.filter fun value => value.name = name) name flags flags' := by
  have hvalues : Assigns (c.values.flatMap fun value => if value.name = name then [value] else [])
      name (c.addValueSets flags) flags' := by
    refine .foldlM (fun flags value flags' hvalue => ?_) (apply_eq_ok h).2
    obtain ⟨flag, flag', hget, -, hassign, rfl⟩ := applyValue_eq_ok hvalue
    split
    · next heq =>
      subst heq
      intro other hother
      obtain rfl : other = flag := Option.some.inj (hother.symm.trans hget)
      refine ⟨flag', NameMap.get?_insert_self _ _ _, ?_⟩
      rw [List.foldlM_cons]
      exact bind_eq_ok.mpr ⟨flag', hassign, rfl⟩
    · next hne => exact .of_eq (NameMap.get?_insert_of_ne _ _ (Ne.symm hne))
  have hsets : Assigns [] name flags (c.addValueSets flags) :=
    .of_eq (NameMap.get?_modify_of_ne _ _ hname)
  rw [filter_name_eq_flatMap]
  exact hsets.append hvalues

/-- What the own settings of a config do to a flag. -/
theorem assigns_of_applyOwn (hname : name ≠ KnownFlag.aconfigValueSets)
    (h : registry.applyOwn config working = .ok working') {flag : FlagState}
    (hget : working.flags.get? name = some flag) :
    Assigns (config.versionAssignments name flag.value ++ config.ownAssignments name) name
      working.flags working'.flags := by
  obtain ⟨flags, hversion, hown, -⟩ := applyOwn_eq_ok h
  refine (assigns_of_setPlatformVersion hversion hget).append ?_
  exact .foldlM (fun flags c flags' hstep => assigns_of_apply hname hstep) hown

/-! ### Freezing -/

/-- What freezing makes of the state of a config. -/
lemma freeze_eq_ok {inherits : List String}
    (h : working.freeze registry config inherits = .ok resolved) :
    resolved.flags = working.flags.settleValueSets ∧
      resolved.filesUsed = working.filesUsed ∧
      resolved.report.flags = resolved.flags.values.map FlagState.report ∧
      resolved.report.aconfigValueSets = working.flags.valueSets ∧
      resolved.report.inherits = inherits := by
  obtain ⟨-, -, h⟩ := bind_eq_ok.mp h
  cases h
  exact ⟨rfl, rfl, rfl, rfl, rfl⟩

lemma FlagState.becomes_settleValueSets (flag : FlagState) : flag.Becomes flag.settleValueSets := by
  refine ⟨rfl, rfl, ?_, id⟩
  simp only [settleValueSets]
  split
  · exact List.prefix_rfl
  · exact List.prefix_append _ _

lemma becomes_of_freeze {inherits : List String}
    (h : working.freeze registry config inherits = .ok resolved) :
    working.flags.Becomes resolved.flags := by
  rw [(freeze_eq_ok h).1]
  exact .modify FlagState.becomes_settleValueSets

lemma get?_of_freeze {inherits : List String} (hname : name ≠ KnownFlag.aconfigValueSets)
    (h : working.freeze registry config inherits = .ok resolved) :
    resolved.flags.get? name = working.flags.get? name := by
  rw [(freeze_eq_ok h).1]
  exact NameMap.get?_modify_of_ne _ _ hname

/-! ### All stages -/

namespace Registry

variable {f : ReleaseConfig → Except Error Resolved}

/-- The flags of the last stage come from the declared ones. -/
lemma Stages.becomes_final (s : registry.Stages f config resolved) :
    registry.flags.Becomes s.final.flags :=
  (becomes_of_inheritAll s.merged_eq).trans <| (becomes_of_applyOwn s.own_eq).trans
    (becomes_of_inheritAll s.final_eq)

/-- The flags of a resolved config come from the declared ones. -/
theorem Stages.becomes (s : registry.Stages f config resolved) :
    registry.flags.Becomes resolved.flags :=
  s.becomes_final.trans (becomes_of_freeze s.resolved_eq)

/-- How the flags of a config come about: from those of its parents, its own settings, which
lead to `own`, and those of the build variant config if it is applied. -/
structure Composed (registry : Registry) (f : ReleaseConfig → Except Error Resolved)
    (config : ReleaseConfig) (resolved : Resolved) (parents : List Resolved) (own : Flags)
    (applied : Option Resolved) : Prop where
  parents_eq : (registry.parentNames config).mapM (fun name => do f (← registry.config name)) =
    .ok parents
  applied_or : applied = none ∧ (∀ variant, ¬ registry.Applies config own variant) ∨
    ∃ variant inherited, applied = some inherited ∧ registry.Applies config own variant ∧
      f variant = .ok inherited
  named : ∀ other ∈ parents ++ applied.toList, other.flags.Named
  flag : ∀ name base, name ≠ KnownFlag.aconfigValueSets → registry.flags.get? name = some base →
    ∃ before, own.get? name = some before ∧
      (config.versionAssignments name (base.mergeAll name parents).value ++
        config.ownAssignments name).foldlM FlagState.assign (base.mergeAll name parents) =
          .ok before ∧
      resolved.flags.get? name = some (before.mergeAll name applied.toList)

/-- What is merged comes from configs of the registry. -/
lemma Composed.exists_ok {parents : List Resolved} {own : Flags} {applied : Option Resolved}
    (h : registry.Composed f config resolved parents own applied) (hn : registry.Named)
    {inherited : Resolved} (hmem : inherited ∈ parents ++ applied.toList) :
    ∃ other, registry.Has other ∧ f other = .ok inherited := by
  rcases List.mem_append.mp hmem with hmem | hmem
  · obtain ⟨name, -, hname⟩ := exists_of_mem_mapM h.parents_eq hmem
    obtain ⟨other, hother, hok⟩ := bind_eq_ok.mp hname
    exact ⟨other, has_of_lookup hn hother, hok⟩
  · rcases h.applied_or with ⟨rfl, -⟩ | ⟨variant, _, rfl, happlies, hok⟩
    · cases hmem
    · obtain ⟨_, -, -, -, hchosen⟩ := happlies.chosen
      rw [Option.toList_some, List.mem_singleton] at hmem
      exact ⟨variant, has_of_lookup hn hchosen, hmem ▸ hok⟩

/-- The flags of a config that was compiled are composed. -/
theorem Stages.composed (s : registry.Stages f config resolved) (hn : registry.Named)
    (hf : ∀ other r, registry.Has other → f other = .ok r → r.flags.Named) :
    registry.Composed f config resolved (s.parents.map Prod.snd) s.own.flags
      (s.applied.map Prod.snd) := by
  have hnamed : ∀ e ∈ s.inherited, e.2.flags.Named :=
    fun e he => hf e.1 e.2 (s.has_of_mem hn he) (s.ok_of_mem he)
  refine ⟨s.resolutions_eq, s.applied_or, ?_, ?_⟩
  · intro other hother
    rw [Option.toList_map, ← List.map_append] at hother
    obtain ⟨e, he, rfl⟩ := List.mem_map.mp hother
    exact hnamed e he
  · intro name base hname hbase
    have hmerged : s.merged.flags.get? name = (registry.flags.get? name).map _ :=
      get?_of_inheritAll (fun e he => hnamed e (List.mem_append_left _ he)) s.merged_eq
    rw [hbase, Option.map_some] at hmerged
    obtain ⟨before, hbefore, hassign⟩ := assigns_of_applyOwn hname s.own_eq hmerged _ hmerged
    refine ⟨before, hbefore, hassign, ?_⟩
    rw [get?_of_freeze hname s.resolved_eq, Option.toList_map,
      get?_of_inheritAll (fun e he => hnamed e (List.mem_append_right _ he)) s.final_eq, hbefore,
      Option.map_some]

end Registry

end ReleaseFlags
