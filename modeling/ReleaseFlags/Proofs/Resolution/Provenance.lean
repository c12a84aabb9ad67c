import ReleaseFlags.Proofs.Resolution.Merges

/-!
# Where the value of a flag comes from

The traces of a flag in a resolved config list every change of the flag once, in the order in
which the changes were made: the declaration, the changes in each parent, the platform version,
the own values, and the changes in the build variant config (`traces_of_generate`).
-/

namespace ReleaseFlags

namespace Registry

open Flags (SameDeclarations)

variable {registry : Registry} {config : ReleaseConfig} {resolved : Resolved}

/-- The flags of a resolved config of a reached registry. -/
lemma Reached.flags_composed (h : registry.Reached) (hc : registry.Has config)
    (hr : registry.outcomeOf config = .ok resolved) :
    ∃ parents own applied,
      registry.Composed registry.outcomeOf config resolved parents own applied := by
  obtain ⟨s⟩ := h.coherent.stages hc hr
  exact ⟨_, _, _, s.composed h.coherent.named fun _ _ hhas hother =>
    (h.coherent.resolves hhas hother).sameDeclarations.named fun _ _ => h.flags_named⟩

/-- The traces of a flag in a resolved config are composed of those of all that changed it:
nothing is lost, repeated or moved.  `own` holds the flags once the own values are applied, which
decide whether the build variant config is. -/
theorem traces_of_generate (h : registry.Reached) {target : String}
    (htarget : registry.configStrict target = .ok config)
    (hr : ((generate target).run registry).1 = .ok resolved) :
    ∃ (parents : List Resolved) (own : Flags) (applied : Option Resolved),
      (registry.parentNames config).mapM
          (fun name => do registry.outcomeOf (← registry.config name)) = .ok parents ∧
      (applied = none ∧ (∀ variant, ¬ registry.Applies config own variant) ∨
        ∃ variant inherited, applied = some inherited ∧
          registry.Applies config own variant ∧ registry.outcomeOf variant = .ok inherited) ∧
      SameDeclarations registry.flags resolved.flags ∧
      ∀ name base, name ≠ KnownFlag.aconfigValueSets → registry.flags.get? name = some base →
        ∃ source before flag, base.traces = [⟨source, base.value⟩] ∧
          own.get? name = some before ∧
          (config.versionAssignments name (base.mergeAll name parents).value ++
            config.ownAssignments name).foldlM FlagState.assign (base.mergeAll name parents) =
              .ok before ∧
          resolved.flags.get? name = some flag ∧
          flag.traces = base.traces ++ (parents.flatMap fun parent => parent.changes name) ++
            (config.versionAssignments name (base.mergeAll name parents).value).map
              Assignment.point ++
            (config.ownAssignments name).map Assignment.point ++
            applied.toList.flatMap fun variant => variant.changes name := by
  have hcoherent := h.coherent
  have hc : registry.Has config := has_of_lookup hcoherent.named htarget
  rw [generate_fst htarget] at hr
  obtain ⟨parents, own, applied, hcomposed⟩ := h.flags_composed hc hr
  refine ⟨parents, own, applied, hcomposed.parents_eq, hcomposed.applied_or,
    (hcoherent.resolves hc hr).sameDeclarations, ?_⟩
  intro name base hname hbase
  obtain ⟨before, hbefore, hassign, hflag⟩ := hcomposed.flag name base hname hbase
  obtain ⟨⟨source, hsource⟩, -⟩ := h.flags_declared hbase
  have hinherited := base.mergeAll_traces
    (fun other hother => hcomposed.named other (List.mem_append_left _ hother)) hname
  have hassigned := FlagState.traces_of_assignments hassign
  have hvariant := before.mergeAll_traces
    (fun other hother => hcomposed.named other (List.mem_append_right _ hother)) hname
  refine ⟨source, before, _, hsource, hbefore, hassign, hflag, ?_⟩
  rw [hvariant, hassigned, hinherited]
  simp only [List.map_append, List.append_assoc]

end Registry

/-- A config directory where `a` inherits `p`, and both inherit the build variant config `v`.  Each
of them gives a value to the same flag. -/
def Source.overriding : Source where
  tree := {
    nodes := ⟨[
      ("/d", .directory),
      ("/d/flag_declarations", .directory),
      ("/d/flag_declarations/F.toml", .file (some "name='F'\nnamespace=''\nworkflow='MANUAL'")),
      ("/d/flag_declarations/U.toml",
        .file (some "name='RELEASE_BUILD_USE_VARIANT_FLAGS'\nnamespace=''\nworkflow='MANUAL'")),
      ("/d/flag_values", .directory),
      ("/d/flag_values/a", .directory),
      ("/d/flag_values/a/F.toml", .file (some "name='F'\nvalue=\x7bstring_value='a'\x7d")),
      ("/d/flag_values/p", .directory),
      ("/d/flag_values/p/F.toml", .file (some "name='F'\nvalue=\x7bstring_value='p'\x7d")),
      ("/d/flag_values/p/RELEASE_BUILD_USE_VARIANT_FLAGS.toml",
        .file (some "name='RELEASE_BUILD_USE_VARIANT_FLAGS'\nvalue=\x7bstring_value='y'\x7d")),
      ("/d/flag_values/v", .directory),
      ("/d/flag_values/v/F.toml", .file (some "name='F'\nvalue=\x7bstring_value='v'\x7d")),
      ("/d/release_config_map.toml", .file (some "")),
      ("/d/release_configs", .directory),
      ("/d/release_configs/a.toml", .file (some "name='a'\ninherits=['p']")),
      ("/d/release_configs/p.toml", .file (some "name='p'")),
      ("/d/release_configs/v.toml",
        .file (some "name='v'\nrelease_config_type='BUILD_VARIANT'"))], by
          unfold Increasing
          decide +kernel⟩
    workingDirectory := "" }
  root := ⟨""⟩

namespace Registry

/-- The sample, ready to be used. -/
def overriding (scanned : Registry) : Registry :=
  { scanned with allowMissing := false }.setOptions layeredOptions

/-- The flag gets the values of the parent, which merges the build variant config itself, then its
own one, and then that of the variant again. -/
theorem traces_of_generate_overriding :
    ∃ (scanned : Registry) (config variant : ReleaseConfig) (resolved inherited : Resolved)
        (parents : List Resolved) (own : Flags) (base flag : FlagState),
      Source.overriding.scan ["d"] = .ok scanned ∧ (overriding scanned).Reached ∧
      (overriding scanned).configStrict "a" = .ok config ∧
      ((generate "a").run (overriding scanned)).1 = .ok resolved ∧
      ((overriding scanned).parentNames config).mapM (fun name => do
        (overriding scanned).outcomeOf (← (overriding scanned).config name)) = .ok parents ∧
      (overriding scanned).Applies config own variant ∧
      (overriding scanned).outcomeOf variant = .ok inherited ∧
      (overriding scanned).flags.get? "F" = some base ∧ resolved.flags.get? "F" = some flag ∧
      flag.traces = base.traces ++ (parents.flatMap fun parent => parent.changes "F") ++
        (config.versionAssignments "F" (base.mergeAll "F" parents).value).map Assignment.point ++
        (config.ownAssignments "F").map Assignment.point ++ inherited.changes "F" ∧
      (config.ownAssignments "F").map Assignment.point = [⟨"d/flag_values/a/F.toml", .text "a"⟩] ∧
      flag.traces.map Tracepoint.value =
        [.unspecified, .text "p", .text "v", .text "a", .text "v"] := by
  have hshows : ((Source.overriding.scan ["d"]).toOption.any fun scanned =>
      ((overriding scanned).configStrict "a").toOption.any fun config =>
        ((generate "a").run (overriding scanned)).1.toOption.any fun resolved =>
          ((config.ownAssignments "F").map Assignment.point =
              [⟨"d/flag_values/a/F.toml", .text "a"⟩] : Bool) &&
            (resolved.flags.get? "F").any fun flag => flag.traces.map Tracepoint.value =
              [.unspecified, .text "p", .text "v", .text "a", .text "v"]) = true := by
    decide +kernel
  obtain ⟨scanned, hscan, hshows⟩ := exists_of_toOption hshows
  obtain ⟨config, hconfig, hshows⟩ := exists_of_toOption hshows
  obtain ⟨resolved, hrun, hshows⟩ := exists_of_toOption hshows
  rw [Bool.and_eq_true, decide_eq_true_eq, Option.any_eq_true] at hshows
  obtain ⟨hown, flag, hflag, hvalues⟩ := hshows
  rw [decide_eq_true_eq] at hvalues
  have hreached : (overriding scanned).Reached :=
    ⟨Source.overriding, ["d"], scanned, false, layeredOptions, [], hscan, rfl⟩
  obtain ⟨parents, own, applied, hparents, happlied, hsame, hflags⟩ :=
    traces_of_generate hreached hconfig hrun
  obtain ⟨base, hbase, -⟩ := hsame.exists_get? hflag
  obtain ⟨_, _, flag', -, -, -, hflag', htraces⟩ := hflags "F" base (by decide) hbase
  obtain rfl : flag = flag' := Option.some.inj (hflag.symm.trans hflag')
  rcases happlied with ⟨rfl, -⟩ | ⟨variant, inherited, rfl, happlies, hinherited⟩
  · -- the own value would be the last one
    rw [htraces, Option.toList_none, List.flatMap_nil, List.append_nil, List.map_append, hown,
      List.map_singleton] at hvalues
    have hlast := congrArg List.getLast? hvalues
    rw [List.getLast?_concat] at hlast
    exact absurd hlast (by decide)
  · rw [Option.toList_some, List.flatMap_singleton] at htraces
    exact ⟨scanned, config, variant, resolved, inherited, parents, own, base, flag, hscan, hreached,
      hconfig, hrun, hparents, happlies, hinherited, hbase, hflag, htraces, hown, hvalues⟩

end Registry

end ReleaseFlags
