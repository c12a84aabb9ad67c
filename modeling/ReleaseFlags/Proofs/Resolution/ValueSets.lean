import ReleaseFlags.Proofs.Resolution.ValueSetLine

/-!
# Value sets add up

As long as no value sets the flag of the value sets itself, in the config or in one that it merges,
nothing replaces the line that the flag holds.  So the value sets of a config are those of its
parents, its own ones and those of the build variant config, in this order and each one once
(`value_sets_of_generate`).
-/

namespace ReleaseFlags

variable {registry : Registry} {config : ReleaseConfig} {resolved : Resolved}
  {working working' : Working} {words : List String}

/-! ### The line of the value sets -/

/-- The flag of the value sets is not redacted in the resolved config, and holds the value sets that
are reported. -/
structure Resolved.ShowsValueSets (resolved : Resolved) : Prop where
  named : resolved.flags.Named
  plain : resolved.flags.hides KnownFlag.aconfigValueSets = false
  lines : resolved.flags.Lines resolved.report.aconfigValueSets

/-- Merging configs that do not redact the value sets appends those of all of them. -/
lemma Flags.Lines.inheritAll {inherited : List (ReleaseConfig × Resolved)}
    (h : working.flags.Lines words) (hinherited : ∀ e ∈ inherited, e.2.ShowsValueSets)
    (hall : working.inheritAll config inherited = .ok working') :
    working'.flags.Lines (words ++ inherited.flatMap fun e => e.2.report.aconfigValueSets) := by
  have hlines := h.of_inheritAll (fun e he => ⟨(hinherited e he).named, (hinherited e he).lines⟩)
    hall
  rw [lineAfter_of_forall, List.flatMap_map] at hlines
  · exact hlines
  · rw [List.forall_mem_map]
    exact fun e he => (hinherited e he).plain

/-- Values for other flags leave the value sets alone. -/
lemma Flags.Lines.applyOwn (h : working.flags.Lines words)
    (hother : ∀ value ∈ config.ownValues, value.name ≠ KnownFlag.aconfigValueSets)
    (hown : registry.applyOwn config working = .ok working') :
    working'.flags.Lines
      (words ++ config.contributions.flatMap fun c => c.file.aconfigValueSets.flatMap Words.ofLine)
    := by
  have hlines := h.of_applyOwn hown
  rw [ReleaseConfig.lineChanges_of_forall hother, lineAfter_of_forall, List.flatMap_map] at hlines
  · exact hlines
  · rw [List.forall_mem_map]
    exact fun c _ => rfl

/-! ### All stages -/

namespace Registry

open Relation

/-- The value sets of a resolved config, if no value for their flag was given in any config that
it merges. -/
theorem value_sets_of_generate (h : registry.Reached) {target : String}
    (htarget : registry.configStrict target = .ok config)
    (hr : ((generate target).run registry).1 = .ok resolved)
    (hother : ∀ other, ReflTransGen registry.Merges config other →
      ∀ value ∈ other.ownValues, value.name ≠ KnownFlag.aconfigValueSets) :
    ∃ (parents : List Resolved) (applied : Option Resolved),
      (registry.parentNames config).mapM
          (fun name => do registry.outcomeOf (← registry.config name)) = .ok parents ∧
      (applied = none ∧ (∀ variant, ¬ registry.AppliesVariant config variant) ∨
        ∃ variant inherited, applied = some inherited ∧
          registry.AppliesVariant config variant ∧ registry.outcomeOf variant = .ok inherited) ∧
      resolved.report.aconfigValueSets =
        ((parents.flatMap fun parent => parent.report.aconfigValueSets) ++
          (config.contributions.flatMap fun c => c.file.aconfigValueSets.flatMap Words.ofLine) ++
          applied.toList.flatMap fun variant => variant.report.aconfigValueSets).eraseDups ∧
      ∃ flag, resolved.flags.get? KnownFlag.aconfigValueSets = some flag ∧
        flag.value = .text (" ".intercalate resolved.report.aconfigValueSets) := by
  have hcoherent := h.coherent
  have hc : registry.Has config := has_of_lookup hcoherent.named htarget
  rw [generate_fst htarget] at hr
  obtain ⟨s⟩ := hcoherent.stages hc hr
  -- nothing that is merged redacts the value sets, since no value is for them
  have hinherited : ∀ e ∈ s.inherited, e.2.ShowsValueSets := by
    intro e he
    have hhas := s.has_of_mem hcoherent.named he
    obtain ⟨t⟩ := hcoherent.stages hhas (s.ok_of_mem he)
    refine ⟨h.named_of_mem s he, ?_, t.lines h.value_sets⟩
    rw [Bool.eq_false_iff]
    intro hhides
    obtain ⟨other, hmerges, hredacts⟩ := (h.hides_iff hhas (s.ok_of_mem he) h.value_sets).mp hhides
    obtain ⟨value, hvalue, hname, -⟩ := ReleaseConfig.redacts_eq_true_iff.mp hredacts
    exact hother other (.head (s.merges_of_mem he) hmerges) value hvalue hname
  have hstart : registry.flags.Lines [] := ⟨valueSetsFlag, h.value_sets, rfl⟩
  have hmerged := hstart.inheritAll (fun e he => hinherited e (List.mem_append_left _ he))
    s.merged_eq
  have hown := hmerged.applyOwn (hother config .refl) s.own_eq
  have hfinal := hown.inheritAll (fun e he => hinherited e (List.mem_append_right _ he)) s.final_eq
  obtain ⟨hsets, -, hflag⟩ := hfinal.freeze s.resolved_eq
  refine ⟨s.parents.map Prod.snd, s.applied.map Prod.snd, s.resolutions_eq, ?_, ?_, hflag⟩
  · simpa only [s.appliesVariant_iff] using s.applied_or
  · rw [hsets, List.nil_append, Option.toList_map, List.flatMap_map, List.flatMap_map]

/-- The parent brings the value sets of the build variant config before the own ones. -/
theorem value_sets_of_generate_layered : layered.Reached ∧
    ∃ config resolved parents applied flag, layered.configStrict "a" = .ok config ∧
      ((generate "a").run layered).1 = .ok resolved ∧
      (layered.parentNames config).mapM
          (fun name => do layered.outcomeOf (← layered.config name)) = .ok parents ∧
      ((parents.flatMap fun parent => parent.report.aconfigValueSets) ++
        (config.contributions.flatMap fun c => c.file.aconfigValueSets.flatMap Words.ofLine) ++
        (Option.toList applied).flatMap fun variant : Resolved =>
          variant.report.aconfigValueSets).eraseDups = ["y", "z", "x"] ∧
      resolved.flags.get? KnownFlag.aconfigValueSets = some flag ∧ flag.value = .text "y z x" := by
  obtain ⟨config, parent, resolved, hconfig, -, hrun, hsets, hother⟩ := layered_shows
  have hcoherent := layered_reached.coherent
  have hplain (other : ReleaseConfig) (hmerges : ReflTransGen layered.Merges config other) :
      ∀ value ∈ other.ownValues, value.name ≠ KnownFlag.aconfigValueSets := by
    have hc : layered.Has config := has_of_lookup hcoherent.named hconfig
    exact hother other (hcoherent.exists_outcome_of_merges hc
      ((generate_fst hconfig).symm.trans hrun) hmerges).1
  obtain ⟨parents, applied, hparents, -, heq, flag, hflag, hvalue⟩ :=
    value_sets_of_generate layered_reached hconfig hrun hplain
  rw [hsets] at heq hvalue
  refine ⟨layered_reached, config, resolved, parents, applied, flag, hconfig, hrun, hparents,
    heq.symm, hflag, hvalue.trans ?_⟩
  decide

end Registry

end ReleaseFlags
