import ReleaseFlags.Proofs.Resolution.ValueSetLine

/-!
# Value sets that get lost

A file may give a value to the flag of the value sets, which no file may declare.  The value takes
the place of all value sets that were collected before it, and a config in which the flag is
redacted makes those forget that merge it what they had.  These are the only ways in which a value
set gets lost (`mem_value_sets_iff`), and the first one is enough (`value_set_lost`).
-/

namespace ReleaseFlags

namespace Registry

variable {registry : Registry} {config : ReleaseConfig} {resolved : Resolved}

/-! ### What changes the line -/

namespace Stages

variable {f : ReleaseConfig → Except Error Resolved} (s : registry.Stages f config resolved)

lemma mem_lineChanges_of_inherited {e : ReleaseConfig × Resolved} (he : e ∈ s.inherited) :
    e.2.lineChange ∈ s.lineChanges := by
  have hmem := List.mem_map_of_mem (f := fun e => e.2.lineChange) he
  rw [inherited, List.map_append] at hmem
  rcases List.mem_append.mp hmem with hmem | hmem
  · exact List.mem_append_left _ (List.mem_append_left _ hmem)
  · exact List.mem_append_right _ hmem

lemma mem_lineChanges_of_contribution {c : Contribution} (hc : c ∈ config.contributions) :
    ⟨c.file.aconfigValueSets.flatMap Words.ofLine, false⟩ ∈ s.lineChanges := by
  refine List.mem_append_left _ (List.mem_append_right _ ?_)
  exact List.mem_flatMap.mpr ⟨c, hc, List.mem_cons_self⟩

/-- Without a value for the flag and without a config that redacts it nothing replaces the line. -/
lemma replaces_eq_false
    (hother : ∀ value ∈ config.ownValues, value.name ≠ KnownFlag.aconfigValueSets)
    (hplain : ∀ e ∈ s.inherited, e.2.flags.hides KnownFlag.aconfigValueSets = false) :
    ∀ change ∈ s.lineChanges, change.replaces = false := by
  obtain ⟨hparents, happlied⟩ := List.forall_mem_append.mp hplain
  rw [lineChanges, ReleaseConfig.lineChanges_of_forall hother, List.forall_mem_append,
    List.forall_mem_append, List.forall_mem_map, List.forall_mem_map, List.forall_mem_map]
  exact ⟨⟨hparents, fun _ _ => rfl⟩, happlied⟩

end Stages

/-- As long as nothing replaces the line, no word of it is lost. -/
lemma Reached.mem_of_mem_lineChanges (h : registry.Reached)
    (s : registry.Stages registry.outcomeOf config resolved)
    (hforall : ∀ change ∈ s.lineChanges, change.replaces = false) {change : LineChange}
    (hchange : change ∈ s.lineChanges) {word : String} (hword : word ∈ change.words) :
    word ∈ resolved.report.aconfigValueSets := by
  rw [(h.value_sets_eq s).1, List.mem_eraseDups, lineAfter_of_forall hforall, List.nil_append]
  exact List.mem_flatMap.mpr ⟨change, hchange, hword⟩

/-! ### Which words are left -/

/-- A word is one of the value sets of a resolved config exactly if a parent, the config itself or
the build variant config brings it and nothing behind that replaces what was collected.  So no value
set is lost as long as no own value is for the flag of the value sets and no merged config redacts
it. -/
theorem mem_value_sets_iff (h : registry.Reached) {target : String}
    (htarget : registry.configStrict target = .ok config)
    (hr : ((generate target).run registry).1 = .ok resolved) :
    ∃ (parents : List Resolved) (applied : Option Resolved),
      (registry.parentNames config).mapM
          (fun name => do registry.outcomeOf (← registry.config name)) = .ok parents ∧
      (applied = none ∧ (∀ variant, ¬ registry.AppliesVariant config variant) ∨
        ∃ variant inherited, applied = some inherited ∧
          registry.AppliesVariant config variant ∧ registry.outcomeOf variant = .ok inherited) ∧
      (∀ word, word ∈ resolved.report.aconfigValueSets ↔ ∃ before change behind,
        parents.map Resolved.lineChange ++ config.contributions.flatMap Contribution.lineChanges ++
            applied.toList.map Resolved.lineChange = before ++ change :: behind ∧
          word ∈ change.words ∧ ∀ later ∈ behind, later.replaces = false) ∧
      ((∀ value ∈ config.ownValues, value.name ≠ KnownFlag.aconfigValueSets) →
        (∀ merged ∈ parents ++ applied.toList,
          merged.flags.hides KnownFlag.aconfigValueSets = false) →
        (∀ c ∈ config.contributions, ∀ line ∈ c.file.aconfigValueSets,
          ∀ word ∈ Words.ofLine line, word ∈ resolved.report.aconfigValueSets) ∧
        ∀ merged ∈ parents ++ applied.toList, ∀ word ∈ merged.report.aconfigValueSets,
          word ∈ resolved.report.aconfigValueSets) := by
  have hcoherent := h.coherent
  have hc : registry.Has config := has_of_lookup hcoherent.named htarget
  rw [generate_fst htarget] at hr
  obtain ⟨s⟩ := hcoherent.stages hc hr
  have hchanges : s.lineChanges = (s.parents.map Prod.snd).map Resolved.lineChange ++
      config.contributions.flatMap Contribution.lineChanges ++
      (s.applied.map Prod.snd).toList.map Resolved.lineChange := by
    simp only [Stages.lineChanges, Option.toList_map, List.map_map, Function.comp_def]
  have hinherited : s.parents.map Prod.snd ++ (s.applied.map Prod.snd).toList =
      s.inherited.map Prod.snd := by
    rw [Stages.inherited, List.map_append, Option.toList_map]
  refine ⟨s.parents.map Prod.snd, s.applied.map Prod.snd, s.resolutions_eq, ?_, ?_, ?_⟩
  · simpa only [s.appliesVariant_iff] using s.applied_or
  · intro word
    rw [(h.value_sets_eq s).1, List.mem_eraseDups, mem_lineAfter_iff, hchanges]
    exact or_iff_right fun hnil => List.not_mem_nil hnil.1
  · rw [hinherited]
    intro hother hplain
    have hforall := s.replaces_eq_false hother (List.forall_mem_map.mp hplain)
    constructor
    · intro c hc line hline word hword
      exact h.mem_of_mem_lineChanges s hforall (s.mem_lineChanges_of_contribution hc)
        (List.mem_flatMap.mpr ⟨line, hline, hword⟩)
    · intro merged hmerged word hword
      obtain ⟨e, he, rfl⟩ := List.mem_map.mp hmerged
      exact h.mem_of_mem_lineChanges s hforall (s.mem_lineChanges_of_inherited he) hword

/-- In the layers nothing replaces what was collected. -/
theorem mem_value_sets_iff_layered : layered.Reached ∧
    ∃ config resolved, layered.configStrict "a" = .ok config ∧
      ((generate "a").run layered).1 = .ok resolved ∧
      ∃ (parents : List Resolved) (applied : Option Resolved),
        ∀ word, word ∈ resolved.report.aconfigValueSets ↔ ∃ before change behind,
          parents.map Resolved.lineChange ++
              config.contributions.flatMap Contribution.lineChanges ++
              applied.toList.map Resolved.lineChange = before ++ change :: behind ∧
            word ∈ change.words ∧ ∀ later ∈ behind, later.replaces = false := by
  obtain ⟨config, -, resolved, hconfig, -, hrun, -⟩ := layered_shows
  obtain ⟨parents, applied, -, -, hwords, -⟩ := mem_value_sets_iff layered_reached hconfig hrun
  exact ⟨layered_reached, config, resolved, hconfig, hrun, parents, applied, hwords⟩

/-- A config directory with a config that has a value set and gives the flag of the value sets a
value. -/
def replacing : Source where
  tree := {
    nodes := ⟨[
      ("/d", .directory),
      ("/d/flag_values", .directory),
      ("/d/flag_values/a", .directory),
      ("/d/flag_values/a/RELEASE_ACONFIG_VALUE_SETS.toml",
        .file (some "name='RELEASE_ACONFIG_VALUE_SETS'\nvalue=\x7bstring_value='t'\x7d")),
      ("/d/release_config_map.toml", .file (some "")),
      ("/d/release_configs", .directory),
      ("/d/release_configs/a.toml", .file (some "name='a'\naconfig_value_sets=['s']"))], by
        unfold Increasing
        decide +kernel⟩
    workingDirectory := "" }
  root := ⟨""⟩

/-- A value set of a contribution may be missing from those of the config. -/
theorem value_set_lost : ∃ scanned config resolved, replacing.scan ["d"] = .ok scanned ∧
    ({ scanned with allowMissing := false }.setOptions .default).configStrict "a" = .ok config ∧
    ((generate "a").run ({ scanned with allowMissing := false }.setOptions .default)).1 =
      .ok resolved ∧
    (∃ c ∈ config.contributions, ∃ line ∈ c.file.aconfigValueSets, "s" ∈ Words.ofLine line) ∧
    "s" ∉ resolved.report.aconfigValueSets := by
  have hlost : (replacing.scan ["d"]).toOption.any (fun scanned =>
      let registry := { scanned with allowMissing := false }.setOptions .default
      (registry.configStrict "a").toOption.any fun config =>
        ((generate "a").run registry).1.toOption.any fun resolved =>
          (config.contributions.any fun c => c.file.aconfigValueSets.any fun line =>
            "s" ∈ Words.ofLine line) && "s" ∉ resolved.report.aconfigValueSets) = true := by
    decide +kernel
  obtain ⟨scanned, hscan, hlost⟩ := exists_of_toOption hlost
  obtain ⟨config, hconfig, hlost⟩ := exists_of_toOption hlost
  obtain ⟨resolved, hrun, hlost⟩ := exists_of_toOption hlost
  simp only [Bool.and_eq_true, List.any_eq_true, decide_eq_true_eq] at hlost
  exact ⟨scanned, config, resolved, hscan, hconfig, hrun, hlost⟩

end Registry

end ReleaseFlags
