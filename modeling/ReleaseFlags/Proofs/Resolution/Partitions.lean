import ReleaseFlags.Proofs.Resolution.Legality
import ReleaseFlags.Proofs.Resolution.Redaction

/-!
# The partitions of a resolved config

The partition of a container holds the reports that the flags of the config add to it, one after
the other by flag name (`lists_partitionsOf`): a redacted flag adds none, any other one adds its
report once for each time that it lists the container.  So a flag that is redacted anywhere among
the configs that are merged is in no partition (`redacted_iff_of_generate`).
-/

namespace ReleaseFlags

variable {flags : Flags} {flag : FlagState} {partitions : NameMap PartitionReport}
  {partition : PartitionReport} {container : String} {report : FlagReport}

/-- The reports that a flag adds to the partition of a container. -/
def FlagState.reportsIn (flag : FlagState) (container : String) : List FlagReport :=
  flag.reportWithoutTraces.toList.flatMap
    (List.replicate (flag.declaration.containers.count container))

lemma FlagState.mem_reportsIn : report ∈ flag.reportsIn container ↔
    container ∈ flag.declaration.containers ∧ flag.redacted = false ∧
      report = ⟨flag.declaration, flag.value, []⟩ := by
  simp only [reportsIn, reportWithoutTraces, List.mem_flatMap, Option.mem_toList,
    List.mem_replicate, Nat.ne_zero_iff_zero_lt, List.count_pos_iff]
  cases flag.redacted <;> simp [and_comm, eq_comm]

/-- The partitions hold these reports for each container; no partition is empty. -/
def Lists (partitions : NameMap PartitionReport) (reports : String → List FlagReport) : Prop :=
  NameMap.Indexes PartitionReport.mk partitions reports

variable {reports : String → List FlagReport}

/-- Adds a report to the partition of a container. -/
def addReport (report : FlagReport) (partitions : NameMap PartitionReport) (container : String) :
    NameMap PartitionReport :=
  partitions.insert container
    ⟨((partitions.get? container).map PartitionReport.flags).getD [] ++ [report]⟩

lemma Lists.addReport (h : Lists partitions reports) (report : FlagReport) (container : String) :
    Lists (addReport report partitions container)
      fun other => reports other ++ List.replicate ([container].count other) report := by
  have hflags : ((partitions.get? container).map PartitionReport.flags).getD [] =
      reports container := by
    rw [h]
    split <;> simp [*]
  rw [ReleaseFlags.addReport, hflags]
  exact NameMap.Indexes.insert h container report

/-- Adding a flag adds its reports to the partitions of its containers. -/
lemma Lists.addToPartitions (h : Lists partitions reports) (flag : FlagState) :
    Lists (addToPartitions partitions flag)
      fun other => reports other ++ flag.reportsIn other := by
  simp only [ReleaseFlags.addToPartitions, FlagState.reportsIn]
  cases flag.reportWithoutTraces with
  | none => simpa using h
  | some report =>
    simp only [Option.toList_some, List.flatMap_singleton]
    exact NameMap.Indexes.foldl_keys (fun h => Lists.addReport h report) h
      flag.declaration.containers

/-- The partition of a container holds the reports of all flags, by flag name. -/
theorem lists_partitionsOf (flags : Flags) : Lists (partitionsOf flags)
    fun container => flags.values.flatMap fun flag => flag.reportsIn container :=
  NameMap.Indexes.foldl Lists.addToPartitions (NameMap.indexes_empty PartitionReport.mk)
    flags.values

lemma partitions_of_freeze {working : Working} {registry : Registry} {config : ReleaseConfig}
    {inherits : List String} {resolved : Resolved}
    (h : working.freeze registry config inherits = .ok resolved) :
    resolved.partitions = partitionsOf resolved.flags := by
  obtain ⟨-, -, h⟩ := bind_eq_ok.mp h
  cases h
  rfl

/-- What is in a partition is the report of a flag that is not redacted and lists the container. -/
lemma exists_of_mem_partition (hget : (partitionsOf flags).get? container = some partition)
    (hmem : report ∈ partition.flags) :
    ∃ name flag, flags.get? name = some flag ∧ container ∈ flag.declaration.containers ∧
      flag.redacted = false ∧ report = ⟨flag.declaration, flag.value, []⟩ := by
  rw [lists_partitionsOf flags] at hget
  split at hget
  · cases hget
  · cases hget
    obtain ⟨flag, hflag, hreport⟩ := List.mem_flatMap.mp hmem
    obtain ⟨name, hname⟩ := NameMap.mem_values.mp hflag
    exact ⟨name, flag, hname, FlagState.mem_reportsIn.mp hreport⟩

namespace Registry

open Relation

variable {registry : Registry} {config other : ReleaseConfig} {resolved : Resolved} {name : String}

/-- The partitions of a resolved config are those of its flags. -/
lemma Resolves.partitions_eq (h : registry.Resolves config resolved) :
    resolved.partitions = partitionsOf resolved.flags := by
  obtain ⟨f, ⟨s⟩⟩ := h.exists_stages
  exact partitions_of_freeze s.resolved_eq

/-- An own value of a config that is merged is for a declared flag. -/
lemma Reached.exists_declared (h : registry.Reached) (hc : registry.Has config)
    (hr : registry.outcomeOf config = .ok resolved)
    (hmerges : ReflTransGen registry.Merges config other) {value : Assignment}
    (hvalue : value ∈ other.ownValues) : ∃ base, registry.flags.get? value.name = some base := by
  obtain ⟨hhas, r, hother⟩ := h.coherent.exists_outcome_of_merges hc hr hmerges
  obtain ⟨s⟩ := h.coherent.stages hhas hother
  obtain ⟨c, hc, hvalue⟩ := List.mem_flatMap.mp hvalue
  obtain ⟨base, hbase, -⟩ := (s.legal fun e => h.named_of_mem s).may_set c hc value hvalue
  exact ⟨base, hbase⟩

/-- A flag is redacted in what a name or alias resolves to exactly if an own value redacts it in
the config, or in one that it merges, directly or through others; and then it is in no
partition. -/
theorem redacted_iff_of_generate (h : registry.Reached) {target : String}
    (hr : ((generate target).run registry).1 = .ok resolved) :
    ∃ config, registry.configStrict target = .ok config ∧ ∀ name,
      ((∃ flag, resolved.flags.get? name = some flag ∧ flag.redacted = true) ↔
        ∃ other, ReflTransGen registry.Merges config other ∧
          ∃ value ∈ other.ownValues, value.name = name ∧ value.redacted = true) ∧
      ∀ flag, resolved.flags.get? name = some flag → flag.redacted = true →
        ∀ container partition, resolved.partitions.get? container = some partition →
          ∀ report ∈ partition.flags, report.declaration.name ≠ name := by
  obtain ⟨config, hconfig, hc, hr⟩ := h.coherent.exists_of_generate hr
  have hresolves := h.coherent.resolves hc hr
  refine ⟨config, hconfig, fun name => ⟨?_, fun flag hflag hredacted => ?_⟩⟩
  · simp only [← Flags.hides_eq_true_iff, ← ReleaseConfig.redacts_eq_true_iff]
    constructor
    · intro hhides
      obtain ⟨flag, hflag, -⟩ := Flags.hides_eq_true_iff.mp hhides
      obtain ⟨base, hbase, -⟩ := hresolves.sameDeclarations.exists_get? hflag
      exact (h.hides_iff hc hr hbase).mp hhides
    · rintro ⟨other, hmerges, hredacts⟩
      obtain ⟨value, hvalue, rfl, -⟩ := ReleaseConfig.redacts_eq_true_iff.mp hredacts
      obtain ⟨base, hbase⟩ := h.exists_declared hc hr hmerges hvalue
      exact (h.hides_iff hc hr hbase).mpr ⟨other, hmerges, hredacts⟩
  · intro container partition hpartition report hreport hname
    rw [hresolves.partitions_eq] at hpartition
    obtain ⟨key, shown, hshown, -, hplain, rfl⟩ := exists_of_mem_partition hpartition hreport
    -- the report is that of the flag itself, by its name
    have hnamed := hresolves.sameDeclarations.named fun _ _ => h.flags_named
    obtain rfl : key = name := (hnamed key shown hshown).symm.trans hname
    obtain rfl := Option.some.inj (hshown.symm.trans hflag)
    rw [hredacted] at hplain
    cases hplain

/-- The flag is redacted in `both`, so one of the configs that `both` merges redacts it. -/
theorem redacted_iff_of_generate_revealing : ∃ registry config resolved, registry.Reached ∧
    registry.configStrict "both" = .ok config ∧
    ((generate "both").run registry).1 = .ok resolved ∧
    ∃ other, ReflTransGen registry.Merges config other ∧
      ∃ value ∈ other.ownValues, value.name = "F" ∧ value.redacted = true := by
  have hfinds : finds "both" "F" FlagState.redacted (revealing.scan ["d"]) = true := by
    decide +kernel
  obtain ⟨scanned, resolved, flag, hscan, hrun, hflag⟩ := exists_of_finds hfinds
  have hreached : ({ scanned with allowMissing := false }.setOptions .default).Reached :=
    ⟨revealing, ["d"], scanned, false, .default, [], hscan, rfl⟩
  obtain ⟨config, hconfig, hredacted⟩ := redacted_iff_of_generate hreached hrun
  exact ⟨_, config, resolved, hreached, hconfig, hrun, (hredacted "F").1.mp ⟨flag, hflag⟩⟩

end Registry

end ReleaseFlags
