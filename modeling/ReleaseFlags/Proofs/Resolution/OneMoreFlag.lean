import Mathlib.Data.List.Basic
import ReleaseFlags.Proofs.Resolution.Merges

/-!
# One more flag

Two registries that differ in one declared flag, which no config sets and the engine does not read,
do the same: at every point of their walks both end with the same error, or what the one has is what
the other one has, and the flag as it was declared (`Flags.Adds`).  Every step of compiling a config
keeps this, so every name has the same error in both registries, or results that differ in that flag
only (`Unused.resolution`).
-/

namespace ReleaseFlags

variable {registry : Registry} {config parent : ReleaseConfig} {resolved resolved' : Resolved}
  {flag g : FlagState} {flags flags' : Flags} {working working' : Working} {name : String}

/-! ### The added flag -/

/-- The second flags are the first ones and a flag that is new among them. -/
structure Flags.Adds (g : FlagState) (flags flags' : Flags) : Prop where
  absent : flags.get? g.name = none
  eq_put : flags' = flags.put g

namespace Flags.Adds

variable (h : flags.Adds g flags')
include h

lemma get?_self : flags'.get? g.name = some g := by
  rw [h.eq_put]
  exact NameMap.get?_insert_self _ _ _

lemma get?_of_ne (hne : name ≠ g.name) : flags'.get? name = flags.get? name := by
  rw [h.eq_put]
  exact NameMap.get?_insert_of_ne _ _ hne

lemma insert (hne : name ≠ g.name) (flag : FlagState) :
    Flags.Adds g (NameMap.insert flags name flag) (NameMap.insert flags' name flag) where
  absent := by rw [NameMap.get?_insert_of_ne _ _ (Ne.symm hne), h.absent]
  eq_put := by
    rw [h.eq_put]
    exact NameMap.insert_comm flags (Ne.symm hne) g flag

lemma modify (hne : g.name ≠ name) (f : FlagState → FlagState) :
    Flags.Adds g (NameMap.modify flags name f) (NameMap.modify flags' name f) where
  absent := by rw [NameMap.get?_modify_of_ne _ _ hne, h.absent]
  eq_put := by
    rw [h.eq_put]
    exact NameMap.modify_insert_of_ne flags hne g f

/-- The flag stands behind those with smaller names and before all others. -/
lemma exists_split (hnamed : flags.Named) : ∃ front back, flags.values = front ++ back ∧
    flags'.values = front ++ g :: back ∧ (∀ flag ∈ front, flag.name < g.name) ∧
    ∀ flag ∈ back, g.name < flag.name := by
  obtain ⟨front, back, hentries, hinsert, hfront, hback⟩ :=
    NameMap.exists_split_insert h.absent g
  have hname (e : String × FlagState) (he : e ∈ front ++ back) : e.2.name = e.1 :=
    hnamed e.1 e.2 (NameMap.mem_entries.mp (hentries ▸ he))
  refine ⟨front.map Prod.snd, back.map Prod.snd, ?_, ?_, ?_, ?_⟩
  · rw [NameMap.values, hentries, List.map_append]
  · rw [h.eq_put, NameMap.values, Flags.put, hinsert, List.map_append, List.map_cons]
  · rw [List.forall_mem_map]
    intro e he
    rw [hname e (List.mem_append_left _ he)]
    exact hfront e he
  · rw [List.forall_mem_map]
    intro e he
    rw [hname e (List.mem_append_right _ he)]
    exact hback e he

end Flags.Adds

/-- The second state has one more flag. -/
structure Working.Adds (g : FlagState) (working working' : Working) : Prop where
  flags : working.flags.Adds g working'.flags
  filesUsed : working'.filesUsed = working.filesUsed

/-- The second resolved config has one more flag, and no other difference than the ones that this
makes for partitions and report. -/
structure Resolved.Adds (g : FlagState) (resolved resolved' : Resolved) : Prop where
  flags : resolved.flags.Adds g resolved'.flags
  rest : resolved' = { resolved with
    flags := resolved'.flags
    partitions := resolved'.partitions
    report := { resolved.report with flags := resolved'.report.flags } }

/-- The registry with one more declared flag. -/
def Registry.withFlag (registry : Registry) (g : FlagState) : Registry :=
  { registry with flags := registry.flags.put g }

/-- The flag is new, no config sets it, and the engine reads no such flag.  In its state there is
nothing to merge. -/
structure Registry.Unused (registry : Registry) (g : FlagState) : Prop where
  absent : registry.flags.get? g.name = none
  unset : ∀ config, registry.Has config → ∀ value ∈ config.ownValues, value.name ≠ g.name
  ne_valueSets : g.name ≠ KnownFlag.aconfigValueSets
  ne_version : g.name ≠ KnownFlag.platformVersion
  ne_variant : g.name ≠ KnownFlag.useVariantFlags
  inherit_self : g.inherit g = g

/-! ### Merging -/

lemma Flags.Adds.inheritFlag {inherited : FlagState} {parentName : String}
    (h : flags.Adds g flags') (hne : inherited.name ≠ g.name) :
    Alike (Flags.Adds g) (Working.inheritFlag parentName flags inherited)
      (Working.inheritFlag parentName flags' inherited) := by
  simp only [Working.inheritFlag, h.get?_of_ne hne]
  cases flags.get? inherited.name with
  | none => exact .error _
  | some flag => exact .ok (h.insert hne _)

/-- Merging the flag that was added changes nothing. -/
lemma Flags.Adds.inheritFlag_self {parentName : String} (h : flags.Adds g flags')
    (hself : g.inherit g = g) : Working.inheritFlag parentName flags' g = .ok flags' := by
  simp only [Working.inheritFlag, h.get?_self, hself]
  exact congrArg Except.ok (NameMap.insert_of_get? h.get?_self)

lemma Working.Adds.inherit (h : working.Adds g working') (hr : resolved.Adds g resolved')
    (hnamed : resolved.flags.Named) (hself : g.inherit g = g) :
    Alike (Working.Adds g) (working.inherit config parent resolved)
      (working'.inherit config parent resolved') := by
  have hfiles : resolved'.filesUsed = resolved.filesUsed := by rw [hr.rest]
  obtain ⟨front, back, hvalues, hvalues', hfront, hback⟩ := hr.flags.exists_split hnamed
  -- no other flag has the name
  have hne {inherited : FlagState} (hlt : inherited.name < g.name ∨ g.name < inherited.name) :
      inherited.name ≠ g.name := by
    intro heq
    rw [heq, or_self] at hlt
    exact String.lt_irrefl _ hlt
  simp only [Working.inherit, hvalues, hvalues', hfiles, h.filesUsed, List.foldlM_append,
    List.foldlM_cons]
  split
  · exact .error _
  · refine .bind (R := Flags.Adds g) (.bind (R := Flags.Adds g) ?_ ?_) ?_
    · refine .foldlM h.flags ?_
      intro flags flags' flag hflag hadds
      exact hadds.inheritFlag (hne (.inl (hfront flag hflag)))
    · intro flags flags' _ hadds
      rw [hadds.inheritFlag_self hself]
      refine .foldlM hadds ?_
      intro flags flags' flag hflag hadds
      exact hadds.inheritFlag (hne (.inr (hback flag hflag)))
    · intro flags flags' _ hadds
      exact .ok ⟨hadds, rfl⟩

/-! ### Own settings -/

lemma Flags.Adds.setPlatformVersion (h : flags.Adds g flags')
    (hne : g.name ≠ KnownFlag.platformVersion) :
    Alike (Flags.Adds g) (config.setPlatformVersion flags) (config.setPlatformVersion flags') := by
  simp only [ReleaseConfig.setPlatformVersion, h.get?_of_ne (Ne.symm hne)]
  split
  · exact .ok h
  · split
    · exact .ok h
    · split
      · exact .ok h
      · exact .bind_eq _ fun flag _ => .ok (h.insert (Ne.symm hne) flag)

lemma Flags.Adds.applyValue {c : Contribution} {value : Assignment} (h : flags.Adds g flags')
    (hne : value.name ≠ g.name) :
    Alike (Flags.Adds g) (c.applyValue registry config flags value)
      (c.applyValue (registry.withFlag g) config flags' value) := by
  simp only [Contribution.applyValue, h.get?_of_ne hne]
  cases flags.get? value.name with
  | none => exact .error _
  | some flag => exact .bind_eq _ fun _ _ => .bind_eq _ fun flag _ => .ok (h.insert hne flag)

lemma Flags.Adds.apply {c : Contribution} (h : flags.Adds g flags')
    (hne : g.name ≠ KnownFlag.aconfigValueSets)
    (hvalues : ∀ value ∈ c.values, value.name ≠ g.name) :
    Alike (Flags.Adds g) (c.apply registry config flags)
      (c.apply (registry.withFlag g) config flags') :=
  .bind_eq _ fun _ _ => .foldlM (h.modify hne _) fun _ _ value hvalue hadds =>
    hadds.applyValue (hvalues value hvalue)

lemma Working.Adds.applyOwn (h : working.Adds g working') (hg : registry.Unused g)
    (hc : registry.Has config) : Alike (Working.Adds g) (registry.applyOwn config working)
      ((registry.withFlag g).applyOwn config working') := by
  refine .bind (h.flags.setPlatformVersion hg.ne_version) ?_
  intro flags flags' _ hversion
  refine .bind (R := Flags.Adds g) (.foldlM hversion ?_) ?_
  · intro flags flags' c hmem hadds
    refine hadds.apply hg.ne_valueSets ?_
    intro value hvalue
    exact hg.unset config hc value (List.mem_flatMap.mpr ⟨c, hmem, hvalue⟩)
  · intro flags flags' _ hown
    refine .ok ⟨hown, ?_⟩
    rw [h.filesUsed]
    rfl

lemma Registry.Unused.variantFor (hg : registry.Unused g) (h : flags.Adds g flags') :
    (registry.withFlag g).variantFor config flags' = registry.variantFor config flags := by
  have huses : Registry.usesVariant config flags' = Registry.usesVariant config flags := by
    simp only [Registry.usesVariant, h.get?_of_ne (Ne.symm hg.ne_variant)]
  simp only [Registry.variantFor, huses]
  rfl

/-! ### Compiling -/

lemma Working.Adds.freeze {inherits : List String} (h : working.Adds g working')
    (hg : registry.Unused g) (hc : registry.Has config) :
    Alike (Resolved.Adds g) (working.freeze registry config inherits)
      (working'.freeze (registry.withFlag g) config inherits) := by
  have hsets : working'.flags.valueSets = working.flags.valueSets := by
    simp only [Flags.valueSets, h.flags.get?_of_ne (Ne.symm hg.ne_valueSets)]
  have hindices : config.indices working'.flags = config.indices working.flags := by
    refine congrArg (config.valueIndices ++ ·) ?_
    refine List.flatMap_congr fun c hmem => List.filterMap_congr fun value hvalue => ?_
    -- the directories that declare what the config sets are the same
    rw [h.flags.get?_of_ne]
    exact hg.unset config hc value (List.mem_flatMap.mpr ⟨c, hmem, hvalue⟩)
  refine .bind_eq _ ?_
  intro _ _
  refine .ok ⟨h.flags.modify hg.ne_valueSets _, ?_⟩
  rw [hsets, hindices, h.filesUsed]
  rfl

namespace Registry

lemma Unused.compile {f f' : ReleaseConfig → Except Error Resolved} (hg : registry.Unused g)
    (hn : registry.Named) (hc : registry.Has config)
    (hnamed : ∀ other r, f other = .ok r → r.flags.Named)
    (hf : ∀ other, registry.Has other → Alike (Resolved.Adds g) (f other) (f' other)) :
    Alike (Resolved.Adds g) (registry.compile f config)
      ((registry.withFlag g).compile f' config) := by
  have hinherit {other : ReleaseConfig} {working working' : Working} (hother : registry.Has other)
      (h : working.Adds g working') : Alike (Working.Adds g)
        (f other >>= fun r => working.inherit config other r)
        (f' other >>= fun r => working'.inherit config other r) := by
    refine (hf other hother).bind ?_
    intro r r' hr hadds
    exact h.inherit hadds (hnamed other r hr) hg.inherit_self
  refine .bind (R := Working.Adds g) (.foldlM ⟨⟨hg.absent, rfl⟩, rfl⟩ ?_) ?_
  · intro working working' name hname h
    refine .bind_eq _ ?_
    intro parent hparent
    exact hinherit (has_of_lookup hn (config_of_parentOf hparent)) h
  intro merged merged' _ hmerged
  refine .bind (hmerged.applyOwn hg hc) ?_
  intro own own' _ hown
  refine .bind (R := Working.Adds g) ?_ ?_
  · rw [inheritVariant, inheritVariant, hg.variantFor hown.flags]
    refine .bind_eq _ ?_
    rintro (_ | variant) hvariant
    · exact .ok hown
    · obtain ⟨_, -, -, -, hchosen⟩ := (variantFor_eq_some_iff.mp hvariant).chosen
      exact hinherit (has_of_lookup hn hchosen) hown
  · intro final final' _ hfinal
    exact hfinal.freeze hg hc

/-- The walks go on side by side. -/
theorem Unused.resolveAnew (hg : registry.Unused g) (hn : registry.Named)
    (hnamed : registry.flags.Named) (hc : registry.Has config) (depth : Nat)
    (active : List String) : Alike (Resolved.Adds g) (registry.resolveAnew depth active config)
      ((registry.withFlag g).resolveAnew depth active config) := by
  induction depth generalizing active config with
  | zero =>
    rw [resolveAnew_zero, resolveAnew_zero]
    exact .error _
  | succ depth ih =>
    by_cases hmem : config.name ∈ active
    · rw [resolveAnew_of_mem _ hmem, resolveAnew_of_mem _ hmem]
      exact .error _
    · rw [Registry.resolveAnew, Registry.resolveAnew, if_neg hmem, if_neg hmem]
      refine hg.compile hn hc (fun other r hr => ?_) fun other hother => ih hother _
      exact (Resolves.of_ok hr).sameDeclarations.named hnamed

/-- A name has the same error in both registries, or results that differ in the flag. -/
lemma Unused.resolution (hg : registry.Unused g) (hn : registry.Named)
    (hnamed : registry.flags.Named) (name : String) :
    Alike (Resolved.Adds g) (registry.resolution name) ((registry.withFlag g).resolution name) :=
  .bind_eq _ fun _ hconfig => hg.resolveAnew hn hnamed (has_of_lookup hn hconfig) _ _

end Registry

end ReleaseFlags
