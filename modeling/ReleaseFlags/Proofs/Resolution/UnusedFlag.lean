import ReleaseFlags.Proofs.Resolution.OneMoreFlag
import ReleaseFlags.Proofs.Resolution.Partitions

/-!
# A flag that no config sets

The result of a name in a registry with one more flag has that flag too, in the state in which it
was declared.  In the report it stands at its place by name, and so it does in the partition of a
container, as often as it lists the container (`Resolved.AddsReports`).  There is no other
difference (`generate_of_unused_flag`).
-/

namespace ReleaseFlags

variable {registry : Registry} {config : ReleaseConfig} {resolved resolved' : Resolved}
  {g : FlagState} {flags flags' : Flags}

/-! ### Reports -/

/-- The second list is the first one with copies of a report, which stand behind the reports of
flags with smaller names and before all others. -/
def Inserts (report : FlagReport) (copies : Nat) (reports reports' : List FlagReport) : Prop :=
  ∃ front back, reports = front ++ back ∧
    reports' = front ++ List.replicate copies report ++ back ∧
    (∀ other ∈ front, other.declaration.name < report.declaration.name) ∧
    ∀ other ∈ back, report.declaration.name < other.declaration.name

lemma Inserts.eq_of_zero {report : FlagReport} {reports reports' : List FlagReport}
    (h : Inserts report 0 reports reports') : reports' = reports := by
  obtain ⟨front, back, rfl, rfl, -⟩ := h
  simp

/-- What the flags report by increasing name, the second flags report too, and what the flag that
was added reports at its place. -/
lemma Flags.Adds.inserts {reports : FlagState → List FlagReport} {report : FlagReport}
    {copies : Nat} (h : flags.Adds g flags') (hnamed : flags.Named)
    (hreports : ∀ flag, ∀ report ∈ reports flag, report.declaration = flag.declaration)
    (hg : reports g = List.replicate copies report) (hreport : report.declaration = g.declaration) :
    Inserts report copies (flags.values.flatMap reports) (flags'.values.flatMap reports) := by
  obtain ⟨front, back, hvalues, hvalues', hfront, hback⟩ := h.exists_split hnamed
  have hname {part : List FlagState} {other : FlagReport} (hother : other ∈ part.flatMap reports) :
      ∃ flag ∈ part, other.declaration.name = flag.name := by
    obtain ⟨flag, hflag, hother⟩ := List.mem_flatMap.mp hother
    exact ⟨flag, hflag, congrArg FlagDeclaration.name (hreports flag other hother)⟩
  refine ⟨front.flatMap reports, back.flatMap reports, ?_, ?_, ?_, ?_⟩
  · rw [hvalues, List.flatMap_append]
  · rw [hvalues', List.flatMap_append, List.flatMap_cons, hg, List.append_assoc]
  · intro other hother
    obtain ⟨flag, hflag, heq⟩ := hname hother
    rw [heq, hreport]
    exact hfront flag hflag
  · intro other hother
    obtain ⟨flag, hflag, heq⟩ := hname hother
    rw [heq, hreport]
    exact hback flag hflag

/-- The reports in the partition of a container; there are none without a partition. -/
def Resolved.listed (resolved : Resolved) (container : String) : List FlagReport :=
  ((resolved.partitions.get? container).map PartitionReport.flags).getD []

/-- The second resolved config has one more flag, which stands at its place in the report and in the
partitions of its containers.  There is no other difference. -/
structure Resolved.AddsReports (g : FlagState) (resolved resolved' : Resolved) : Prop
    extends resolved.Adds g resolved' where
  report : Inserts g.report 1 resolved.report.flags resolved'.report.flags
  listed : ∀ container, Inserts ⟨g.declaration, g.value, []⟩
    (g.declaration.containers.count container) (resolved.listed container)
    (resolved'.listed container)
  partitions : ∀ container, container ∉ g.declaration.containers →
    resolved'.partitions.get? container = resolved.partitions.get? container

lemma Resolved.listed_eq (h : resolved.partitions = partitionsOf resolved.flags)
    (container : String) :
    resolved.listed container =
      resolved.flags.values.flatMap fun flag => flag.reportsIn container := by
  rw [listed, h, lists_partitionsOf]
  split <;> simp [*]

/-- A container has a partition if there are reports in it. -/
lemma Resolved.get?_partitions (h : resolved.partitions = partitionsOf resolved.flags)
    (container : String) : resolved.partitions.get? container =
      if resolved.listed container = [] then none else some ⟨resolved.listed container⟩ := by
  rw [listed_eq h, h]
  exact lists_partitionsOf resolved.flags container

/-- The reports differ by those of the flag. -/
lemma Resolved.Adds.addsReports {registry' : Registry} {config' : ReleaseConfig}
    (h : resolved.Adds g resolved') (hnamed : resolved.flags.Named) (hplain : g.redacted = false)
    (hr : registry.Resolves config resolved) (hr' : registry'.Resolves config' resolved') :
    resolved.AddsReports g resolved' := by
  have hlisted (container : String) : Inserts ⟨g.declaration, g.value, []⟩
      (g.declaration.containers.count container) (resolved.listed container)
      (resolved'.listed container) := by
    rw [Resolved.listed_eq hr.partitions_eq, Resolved.listed_eq hr'.partitions_eq]
    refine h.flags.inserts hnamed ?_ ?_ rfl
    · intro flag report hreport
      obtain ⟨-, -, rfl⟩ := FlagState.mem_reportsIn.mp hreport
      rfl
    · simp [FlagState.reportsIn, FlagState.reportWithoutTraces, hplain]
  refine { h with report := ?_, listed := hlisted, partitions := ?_ }
  · rw [hr.report_flags, hr'.report_flags, List.map_eq_flatMap, List.map_eq_flatMap]
    refine h.flags.inserts hnamed ?_ rfl rfl
    intro flag report hreport
    rw [List.mem_singleton.mp hreport]
    rfl
  · intro container hcontainer
    have hsame := hlisted container
    rw [List.count_eq_zero.mpr hcontainer] at hsame
    rw [Resolved.get?_partitions hr.partitions_eq, Resolved.get?_partitions hr'.partitions_eq,
      hsame.eq_of_zero]

/-! ### Registries -/

namespace Registry

/-- Of a flag that was only declared there is nothing to merge. -/
lemma inherit_declare {declaration : FlagDeclaration} (index : Option Nat) (source : String)
    (hname : declaration.name ≠ KnownFlag.aconfigValueSets) :
    (FlagState.declare declaration index source).inherit (.declare declaration index source) =
      .declare declaration index source := by
  have hother : (FlagState.declare declaration index source).name ≠ KnownFlag.aconfigValueSets :=
    hname
  simp only [FlagState.inherit, if_neg hother]
  rfl

/-- Declaring a flag that no config sets and that the engine does not read changes nothing else:
with an empty cache, every name has the same error as before, or a result that differs from the one
before in the declared flag only. -/
theorem generate_of_unused_flag (h : registry.Reached) {declaration : FlagDeclaration}
    (index : Option Nat) (source : String)
    (hnew : registry.flags.get? declaration.name = none)
    (hunset : ∀ config, registry.Has config → ∀ value ∈ config.ownValues,
      value.name ≠ declaration.name)
    (hversion : declaration.name ≠ KnownFlag.platformVersion)
    (hvariant : declaration.name ≠ KnownFlag.useVariantFlags) (name : String) :
    let flag := FlagState.declare declaration index source
    let extended := { registry with flags := registry.flags.put flag }
    (∀ e, ((generate name).run registry.forget).1 = .error e ↔
      ((generate name).run extended.forget).1 = .error e) ∧
    ∀ resolved, ((generate name).run registry.forget).1 = .ok resolved →
      ∃ resolved', ((generate name).run extended.forget).1 = .ok resolved' ∧
        resolved.AddsReports flag resolved' := by
  intro flag extended
  have hcoherent := h.coherent
  have hextended : extended.forget.Coherent :=
    ⟨hcoherent.named, hcoherent.unshadowed, sound_empty⟩
  have hsets : declaration.name ≠ KnownFlag.aconfigValueSets := by
    intro heq
    rw [heq, h.value_sets] at hnew
    cases hnew
  have hunused : registry.Unused flag :=
    ⟨hnew, hunset, hsets, hversion, hvariant, inherit_declare index source hsets⟩
  have hnamed : registry.flags.Named := fun _ _ => h.flags_named
  have halike := hunused.resolution hcoherent.named hnamed name
  rw [hcoherent.forget.generate_eq, hextended.generate_eq, forget, forget, resolution_withCache,
    resolution_withCache]
  refine ⟨halike.error_iff, fun resolved hr => ?_⟩
  obtain ⟨resolved', hr', hadds⟩ := halike.exists_of_ok hr
  refine ⟨resolved', hr', ?_⟩
  obtain ⟨config, -, hr⟩ := bind_eq_ok.mp hr
  obtain ⟨config', -, hr'⟩ := bind_eq_ok.mp hr'
  have hresolves : registry.Resolves config resolved := .of_ok hr
  have hresolves' : extended.Resolves config' resolved' := .of_ok hr'
  exact hadds.addsReports (hresolves.sameDeclarations.named hnamed) rfl hresolves hresolves'

/-- A flag that nothing in the layers sets. -/
def spare : FlagDeclaration :=
  { (default : FlagDeclaration) with name := "SPARE", containers := ["system"] }

/-- With a spare flag, `a` resolves to the same and the flag. -/
theorem generate_of_unused_flag_spare : layered.Reached ∧
    layered.flags.get? spare.name = none ∧
    (∀ config, layered.Has config → ∀ value ∈ config.ownValues, value.name ≠ spare.name) ∧
    spare.name ≠ KnownFlag.platformVersion ∧ spare.name ≠ KnownFlag.useVariantFlags ∧
    ∃ resolved resolved', ((generate "a").run layered.forget).1 = .ok resolved ∧
      ((generate "a").run { layered with
        flags := layered.flags.put (.declare spare (some 0) "SPARE.toml") }.forget).1 =
          .ok resolved' ∧
      resolved.AddsReports (.declare spare (some 0) "SPARE.toml") resolved' := by
  have hspare : (Source.layered.scan ["d"]).toOption.any (fun scanned =>
      scanned.flags.get? spare.name = none && scanned.configs.values.all fun config =>
        config.ownValues.all fun value => value.name ≠ spare.name) = true := by
    decide +kernel
  obtain ⟨scanned, hscan, hspare⟩ := exists_of_toOption hspare
  have hlayers : layers = scanned := Except.ok.inj (scan_layered.symm.trans hscan)
  simp only [Bool.and_eq_true, decide_eq_true_eq, List.all_eq_true] at hspare
  have hnew : layered.flags.get? spare.name = none := by
    rw [layered, hlayers]
    exact hspare.1
  have hunset : ∀ config, layered.Has config →
      ∀ value ∈ config.ownValues, value.name ≠ spare.name := by
    intro config hc
    rw [Has, layered, hlayers] at hc
    exact hspare.2 config (NameMap.mem_values.mpr ⟨config.name, hc⟩)
  obtain ⟨_, _, resolved, -, -, hrun, -⟩ := layered_shows
  have hforget : ((generate "a").run layered.forget).1 = .ok resolved := by
    rw [layered_reached.coherent.forget.generate_eq, forget, resolution_withCache,
      ← layered_reached.coherent.generate_eq, hrun]
  obtain ⟨resolved', hrun', hadds⟩ := (generate_of_unused_flag layered_reached (some 0) "SPARE.toml"
    hnew hunset (by decide) (by decide) "a").2 resolved hforget
  exact ⟨layered_reached, hnew, hunset, by decide, by decide, resolved, resolved', hforget, hrun',
    hadds⟩

end Registry

end ReleaseFlags
