import ReleaseFlags.Path
import ReleaseFlags.Resolution.Inherit

/-!
The last steps of resolving a release config: the value sets are settled, the
contributing directories are listed and checked, and the flags are sorted into
partitions.
-/

namespace ReleaseFlags

/-! ### Value sets -/

/-- Drops repeated value sets and records the final list. -/
def FlagState.settleValueSets (flag : FlagState) : FlagState :=
  let value := Value.text (Words.toLine (valueSetsOfLine flag.value.textContent))
  let last := flag.traces.getLast?.map Tracepoint.value
  { flag with
    value
    traces := if last = some value then flag.traces else flag.traces ++ [⟨engineSource, value⟩] }

/-- The value sets that were collected. -/
def Flags.valueSets (flags : Flags) : List String :=
  match flags.get? KnownFlag.aconfigValueSets with
  | some flag => valueSetsOfLine flag.value.textContent
  | none => []

/-- Settles the flag of the value sets. -/
def Flags.settleValueSets (flags : Flags) : Flags :=
  flags.modify KnownFlag.aconfigValueSets FlagState.settleValueSets

/-! ### Directories -/

namespace ReleaseConfig

/-- The indices of the directories that could give values to the config: those of its
contributions. -/
def valueIndices (config : ReleaseConfig) : List Nat := config.contributions.map Contribution.index

/-- The indices of the directories that contribute to the config: those of its contributions,
and those that declare a flag which one of them sets. -/
def indices (config : ReleaseConfig) (flags : Flags) : List Nat :=
  config.valueIndices ++
    config.contributions.flatMap fun c => c.values.filterMap fun value =>
      (flags.get? value.name).bind FlagState.declarationIndex

end ReleaseConfig

/-- The directories with one of the given indices, in order. -/
def Registry.directoriesAt (registry : Registry) (indices : List Nat) : List String :=
  (registry.directories.zipIdx.filter fun (_, index) => index ∈ indices).map Prod.fst

/-- Checks a directory against one exclusive prefix. `first` is the last directory before it
that was below some exclusive prefix. -/
def checkPrefix (name directory : String) (first : Option String) (dirPrefix : String) :
    Except Error (Option String) :=
  if !(Path.ofText directory).startsWithDir dirPrefix then .ok first
  else match first with
    | none => .ok (some directory)
    | some other =>
      if (Path.ofText other).startsWithDir dirPrefix then .ok (some directory)
      else .error (.exclusiveDirectories name other directory)

/-- Refuses directories below different exclusive prefixes. -/
def checkExclusive (name : String) (prefixes directories : List String) : Except Error Unit := do
  let _ ← directories.foldlM
    (fun first directory => prefixes.foldlM (checkPrefix name directory) first) none

/-! ### Partitions -/

/-- Adds the report of a flag to its containers, once for each time that it lists them. -/
def addToPartitions (partitions : NameMap PartitionReport) (flag : FlagState) :
    NameMap PartitionReport :=
  match flag.reportWithoutTraces with
  | none => partitions
  | some report => flag.declaration.containers.foldl (fun partitions container =>
      let flags := ((partitions.get? container).map PartitionReport.flags).getD []
      partitions.insert container ⟨flags ++ [report]⟩) partitions

/-- The unredacted flags of each container, by name. -/
def partitionsOf (flags : Flags) : NameMap PartitionReport :=
  flags.values.foldl addToPartitions NameMap.empty

/-! ### The result -/

/-- The resolved config, once all flags have their values. -/
def Working.freeze (working : Working) (registry : Registry) (config : ReleaseConfig)
    (inherits : List String) : Except Error Resolved := do
  let valueDirectories := registry.directoriesAt config.valueIndices
  checkExclusive config.name registry.options.exclusivePrefixes valueDirectories
  let flags := working.flags.settleValueSets
  let priorStages := config.priorStages
  return {
    name := config.name
    flags
    filesUsed := working.filesUsed
    priorStages
    partitions := partitionsOf flags
    report := {
      name := config.name
      otherNames := config.otherNames
      flags := flags.values.map FlagState.report
      aconfigValueSets := working.flags.valueSets
      inherits
      directories := registry.directoriesAt (config.indices working.flags)
      valueDirectories
      priorStages := priorStages.names
      kind := config.kind
      disallowLunchUse := config.disallowLunchUse } }

end ReleaseFlags
