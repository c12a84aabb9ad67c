import Mathlib.Data.List.Induction
import ReleaseFlags.Proofs.Resolution.Settled

/-!
# Redacted flags

A redacted flag refuses plain values, and redacting hides its value.  But merging a config that
overrides the flag replaces the value, also of a flag that is redacted.  So the value of a
redacted flag is hidden exactly if the last of all that changed it left it hidden
(`redacted_value_iff`): own values always do, and an inherited config that never hid the flag
does not.
-/

namespace ReleaseFlags

namespace FlagState

variable {flag flag' inherited : FlagState} {name : String} {configs : List Resolved}

/-! ### Several configs -/

/-- The state of the flag in the last of the configs that overrides it. -/
def lastOverride (name : String) (configs : List Resolved) : Option FlagState :=
  (configs.filterMap fun resolved =>
    (resolved.flags.get? name).filter FlagState.isOverridden).getLast?

lemma lastOverride_append (configs : List Resolved) (last : Resolved) :
    lastOverride name (configs ++ [last]) =
      ((last.flags.get? name).filter FlagState.isOverridden).or (lastOverride name configs) := by
  rw [lastOverride, List.filterMap_append, List.getLast?_append]
  cases hfilter : (last.flags.get? name).filter FlagState.isOverridden with
  | none => simp [hfilter, lastOverride]
  | some inherited => simp [hfilter]

lemma mergeAll_append (flag : FlagState) (configs : List Resolved) (last : Resolved) :
    flag.mergeAll name (configs ++ [last]) =
      (flag.mergeAll name configs).merge (last.flags.get? name) := by
  rw [mergeAll, List.foldl_append]
  rfl

/-- Merging several configs leaves the value of the last one that overrides the flag. -/
lemma mergeAll_value (flag : FlagState) (hname : name ≠ KnownFlag.aconfigValueSets)
    (hconfigs : ∀ resolved ∈ configs, SettledIn name resolved) :
    (flag.mergeAll name configs).value =
      ((lastOverride name configs).map FlagState.value).getD flag.value := by
  -- the last config is split off: either it overrides the flag, or the others decide
  induction configs using List.reverseRecOn with
  | nil => rfl
  | append_singleton configs last ih =>
    have hrest := ih fun resolved hmem => hconfigs resolved (List.mem_append_left _ hmem)
    have hlast := hconfigs last (List.mem_append_right _ (List.mem_singleton_self last))
    rw [mergeAll_append, lastOverride_append]
    cases hget : last.flags.get? name with
    | none => exact hrest
    | some inherited =>
      obtain ⟨hinherited, hsettled⟩ := hlast inherited hget
      rw [merge, hsettled.inherit_value _ (hinherited ▸ hname)]
      cases hoverridden : inherited.isOverridden with
      | true => simp [Option.filter, hoverridden]
      | false => simpa [Option.filter, hoverridden] using hrest

/-- Merging configs that do not override the flag does not redact it. -/
lemma mergeAll_redacted (flag : FlagState)
    (hconfigs : ∀ resolved ∈ configs, SettledIn name resolved)
    (hlast : lastOverride name configs = none) :
    (flag.mergeAll name configs).redacted = flag.redacted := by
  induction configs using List.reverseRecOn with
  | nil => rfl
  | append_singleton configs last ih =>
    rw [lastOverride_append, Option.or_eq_none_iff] at hlast
    have hrest := ih (fun resolved hmem => hconfigs resolved (List.mem_append_left _ hmem)) hlast.2
    have hsettledIn := hconfigs last (List.mem_append_right _ (List.mem_singleton_self last))
    rw [mergeAll_append]
    cases hget : last.flags.get? name with
    | none => exact hrest
    | some inherited =>
      have hoverridden : inherited.isOverridden = false := by
        simpa [hget, Option.filter] using hlast.1
      cases hredacted : inherited.redacted with
      | false => rw [merge, inherit_redacted, hredacted, Bool.or_false, hrest]
      | true =>
        rw [(hsettledIn inherited hget).2.overridden hredacted] at hoverridden
        cases hoverridden

/-- A flag that is redacted after its own assignments is hidden: a redacted flag refuses plain
values. -/
lemma value_of_assignments {assignments : List Assignment} (hne : assignments ≠ [])
    (hassign : assignments.foldlM FlagState.assign flag = .ok flag')
    (hredacted : flag'.redacted = true) : flag'.value = .obsolete := by
  obtain ⟨init, last, rfl⟩ := (List.eq_nil_or_concat assignments).resolve_left hne
  rw [List.concat_eq_append, List.foldlM_append] at hassign
  obtain ⟨between, -, hassign⟩ := bind_eq_ok.mp hassign
  rw [List.foldlM_cons] at hassign
  obtain ⟨done, hlast, hassign⟩ := bind_eq_ok.mp hassign
  cases hassign
  obtain ⟨-, hrefuses, rfl⟩ := assign_eq_ok.mp hlast
  -- a plain value would have been refused, so the last assignment redacts
  have hredacts : last.redacted = true := by
    rw [Bool.or_eq_true] at hredacted
    rcases hredacted with hredacted | hredacted
    · exact hrefuses hredacted
    · exact hredacted
  simp [Assignment.point, hredacts]

end FlagState

/-- The fragment has a line for each of its variables. -/
lemma Makefile.exists_line {registry : Registry} {resolved : Resolved}
    {extras : List (String × Resolved)} {name target : String} {flag : FlagState}
    (h : (exportedFlags resolved extras).get? name = some flag) :
    ∃ before after, text registry resolved extras target =
      before ++ assign name flag.value.marshal ++ after := by
  obtain ⟨first, rest, hentries⟩ := List.mem_iff_append.mp (NameMap.mem_entries.mpr h)
  have hlines : String.join ((exportedFlags resolved extras).entries.map
      fun e => assign e.1 e.2.value.marshal) =
        String.join (first.map fun e => assign e.1 e.2.value.marshal) ++
          (assign name flag.value.marshal ++
            String.join (rest.map fun e => assign e.1 e.2.value.marshal)) := by
    rw [hentries, List.map_append, List.map_cons, String.join_append, String.join_cons]
  obtain ⟨header, hheader⟩ : ∃ header, text registry resolved extras target =
      header ++ String.join ((exportedFlags resolved extras).entries.map
        fun e => assign e.1 e.2.value.marshal) := ⟨_, rfl⟩
  refine ⟨header ++ String.join (first.map fun e => assign e.1 e.2.value.marshal),
    String.join (rest.map fun e => assign e.1 e.2.value.marshal), ?_⟩
  rw [hheader, hlines, String.append_assoc, String.append_assoc]

namespace Registry

open FlagState (SettledIn lastOverride)

variable {registry : Registry} {config : ReleaseConfig} {resolved : Resolved} {name : String}

/-- The last of all that changed the flag left it hidden.  These are, from last to first, the
build variant config, the own settings of the config and its parents; the own settings leave a
redacted flag hidden. -/
def LastHides (name : String) (parents : List Resolved) (own : List Assignment)
    (applied : Option Resolved) : Prop :=
  match lastOverride name applied.toList with
  | some inherited => inherited.value = .obsolete
  | none => own = [] → ∀ inherited, lastOverride name parents = some inherited →
      inherited.value = .obsolete

lemma Composed.value_iff {f : ReleaseConfig → Except Error Resolved} {parents : List Resolved}
    {own : Flags} {applied : Option Resolved} {base flag : FlagState}
    (h : registry.Composed f config resolved parents own applied)
    (hname : name ≠ KnownFlag.aconfigValueSets)
    (hsettled : ∀ inherited ∈ parents ++ applied.toList, SettledIn name inherited)
    (hbase : registry.flags.get? name = some base) (hdeclared : base.Declared)
    (hflag : resolved.flags.get? name = some flag) (hredacted : flag.redacted = true) :
    flag.value = .obsolete ↔ LastHides name parents
      (config.versionAssignments name (base.mergeAll name parents).value ++
        config.ownAssignments name) applied := by
  obtain ⟨before, -, hassign, hfinal⟩ := h.flag name base hname hbase
  obtain rfl := Option.some.inj (hfinal.symm.trans hflag)
  have hparents : ∀ inherited ∈ parents, SettledIn name inherited :=
    fun inherited hmem => hsettled inherited (List.mem_append_left _ hmem)
  have happlied : ∀ inherited ∈ applied.toList, SettledIn name inherited :=
    fun inherited hmem => hsettled inherited (List.mem_append_right _ hmem)
  rw [LastHides, before.mergeAll_value hname happlied]
  cases hvariant : lastOverride name applied.toList with
  | some inherited => rfl
  | none =>
    rw [before.mergeAll_redacted happlied hvariant] at hredacted
    simp only [Option.map_none, Option.getD_none]
    by_cases hown : config.versionAssignments name (base.mergeAll name parents).value ++
        config.ownAssignments name = []
    · rw [hown] at hassign
      cases hassign
      have hvalue := base.mergeAll_value hname hparents
      cases hlast : lastOverride name parents with
      | none =>
        -- without a change the flag is not redacted
        rw [base.mergeAll_redacted hparents hlast, hdeclared.not_redacted] at hredacted
        cases hredacted
      | some inherited =>
        rw [hlast, Option.map_some, Option.getD_some] at hvalue
        constructor
        · rintro hhidden - _ ⟨⟩
          exact hvalue.symm.trans hhidden
        · intro hhides
          exact hvalue.trans (hhides hown inherited rfl)
    · simp [hown, FlagState.value_of_assignments hown hassign hredacted]

/-- When a redacted flag shows no value.  Neither reports nor the makefile fragment hide what the
flag does not. -/
theorem redacted_value_iff (h : registry.Reached) {target : String}
    (htarget : registry.configStrict target = .ok config)
    (hr : ((generate target).run registry).1 = .ok resolved)
    (hname : name ≠ KnownFlag.aconfigValueSets) {flag : FlagState}
    (hflag : resolved.flags.get? name = some flag) (hredacted : flag.redacted = true) :
    ∃ (parents : List Resolved) (own : Flags) (applied : Option Resolved) (base : FlagState),
      registry.Composed registry.outcomeOf config resolved parents own applied ∧
      registry.flags.get? name = some base ∧
      (flag.value = .obsolete ↔ LastHides name parents
        (config.versionAssignments name (base.mergeAll name parents).value ++
          config.ownAssignments name) applied) ∧
      flag.report ∈ resolved.report.flags ∧
      ∀ extras requested, (Makefile.exportedFlags resolved extras).get? name = some flag →
        ∃ before after, Makefile.text registry resolved extras requested =
          before ++ Makefile.assign name flag.value.marshal ++ after := by
  have hcoherent := h.coherent
  have hc : registry.Has config := has_of_lookup hcoherent.named htarget
  rw [generate_fst htarget] at hr
  have hresolves := hcoherent.resolves hc hr
  obtain ⟨parents, own, applied, hcomposed⟩ := h.flags_composed hc hr
  obtain ⟨base, hbase, -⟩ := hresolves.sameDeclarations.exists_get? hflag
  have hsettled : ∀ inherited ∈ parents ++ applied.toList, SettledIn name inherited := by
    intro inherited hmem
    obtain ⟨other, hother, hok⟩ := hcomposed.exists_ok hcoherent.named hmem
    exact h.settledIn hname (hcoherent.resolves hother hok)
  refine ⟨parents, own, applied, base, hcomposed, hbase, ?_, ?_, ?_⟩
  · exact hcomposed.value_iff hname hsettled hbase (h.flags_declared hbase) hflag hredacted
  · rw [hresolves.report_flags]
    exact List.mem_map.mpr ⟨flag, NameMap.mem_values.mpr ⟨name, hflag⟩, rfl⟩
  · intro extras requested hexported
    exact Makefile.exists_line hexported

theorem redacted_value_iff_sample : sampled.Reached ∧
    ∃ config resolved flag parents own applied,
      sampled.configStrict "a" = .ok config ∧ ((generate "a").run sampled).1 = .ok resolved ∧
      resolved.flags.get? "F" = some flag ∧ flag.redacted = true ∧
      (flag.value = .obsolete ↔ LastHides "F" parents own applied) := by
  obtain ⟨-, resolved, flag, hrun, hflag, hredacted⟩ := sample_hides
  obtain ⟨config, hconfig⟩ := exists_configStrict_of_generate hrun
  obtain ⟨parents, _, applied, _, -, -, hvalue, -⟩ :=
    redacted_value_iff sampled_reached hconfig hrun (by decide) hflag hredacted
  exact ⟨sampled_reached, config, resolved, flag, parents, _, applied, hconfig, hrun, hflag,
    hredacted, hvalue⟩

/-- A config directory with a flag that `hidden` redacts and `shown` sets, and a config that
inherits both, in this order. -/
def revealing : Source where
  tree := {
    nodes := ⟨[
      ("/d", .directory),
      ("/d/flag_declarations", .directory),
      ("/d/flag_declarations/F.toml", .file (some "name='F'\nnamespace=''\nworkflow='MANUAL'")),
      ("/d/flag_values", .directory),
      ("/d/flag_values/hidden", .directory),
      ("/d/flag_values/hidden/F.toml", .file (some "name='F'\nredacted=true")),
      ("/d/flag_values/shown", .directory),
      ("/d/flag_values/shown/F.toml",
        .file (some "name='F'\nvalue=\x7bstring_value='secret'\x7d")),
      ("/d/release_config_map.toml", .file (some "")),
      ("/d/release_configs", .directory),
      ("/d/release_configs/both.toml", .file (some "name='both'\ninherits=['hidden','shown']")),
      ("/d/release_configs/hidden.toml", .file (some "name='hidden'")),
      ("/d/release_configs/shown.toml", .file (some "name='shown'"))], by
        unfold Increasing
        decide +kernel⟩
    workingDirectory := "" }
  root := ⟨""⟩

/-- A flag may be redacted and show its value. -/
theorem redacted_value_shown : ∃ scanned resolved flag,
    revealing.scan ["d"] = .ok scanned ∧
      ((generate "both").run ({ scanned with allowMissing := false }.setOptions .default)).1 =
        .ok resolved ∧
      resolved.flags.get? "F" = some flag ∧ flag.redacted = true ∧
      flag.value = .text "secret" := by
  have hfinds : finds "both" "F" (fun flag => flag.redacted && flag.value = .text "secret")
      (revealing.scan ["d"]) = true := by
    decide +kernel
  obtain ⟨scanned, resolved, flag, hscan, hrun, hflag, hshown⟩ := exists_of_finds hfinds
  rw [Bool.and_eq_true, decide_eq_true_eq] at hshown
  exact ⟨scanned, resolved, flag, hscan, hrun, hflag, hshown⟩

end Registry

end ReleaseFlags
