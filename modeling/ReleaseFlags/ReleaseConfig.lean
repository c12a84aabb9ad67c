import ReleaseFlags.Message.Release
import ReleaseFlags.Text.Words

/-!
Release configs, before and after they are resolved.

A release config is assembled from the contributions of all config directories
that mention it, at most one for each directory. Resolving it settles the state
of every flag.
-/

namespace ReleaseFlags

/-- What one config directory contributes to a release config. -/
structure Contribution where
  /-- The path of the release file. -/
  path : String
  /-- The index of the config directory. Values cannot be given to flags that are declared at
  a higher index. -/
  index : Nat
  file : ReleaseFile
  /-- The values that the directory gives, in the order of the files. -/
  values : List Assignment
  deriving DecidableEq, Repr, Inhabited

/-- A release config, as all config directories together describe it. -/
structure ReleaseConfig where
  name : String
  /-- The index of the first config directory that declares it. -/
  index : Nat
  /-- The contributions, in the order of the directories. -/
  contributions : List Contribution
  /-- The aliases that lead to it, increasing. -/
  otherNames : List String
  /-- The names of the configs to inherit, by first mention and without repetitions. -/
  inheritNames : List String
  aconfigFlagsOnly : Bool
  disallowLunchUse : Bool
  kind : ReleaseKind
  /-- The files that were read for it. -/
  filesUsed : NameSet
  deriving DecidableEq

namespace ReleaseConfig

/-- A release config without contributions. -/
def new (name : String) (index : Nat) (kind : ReleaseKind) : ReleaseConfig where
  name := name
  index := index
  contributions := []
  otherNames := []
  inheritNames := []
  aconfigFlagsOnly := false
  disallowLunchUse := false
  kind := kind
  filesUsed := NameMap.empty

/-- Adds a contribution and folds its settings into the config. -/
def addContribution (config : ReleaseConfig) (c : Contribution) : ReleaseConfig :=
  { config with
    contributions := config.contributions ++ [c]
    inheritNames := distinct (config.inheritNames ++ c.file.inherits)
    aconfigFlagsOnly := config.aconfigFlagsOnly || c.file.aconfigFlagsOnly
    disallowLunchUse := config.disallowLunchUse || c.file.disallowLunchUse }

/-- True if the config may be the target of a build. -/
def isListable (config : ReleaseConfig) : Bool :=
  !config.disallowLunchUse && config.kind = .release

/-- The prior stages that any contribution names. -/
def priorStages (config : ReleaseConfig) : NameSet :=
  NameSet.ofNames (config.contributions.flatMap fun c => c.file.priorStages)

end ReleaseConfig

/-- The name of the config that every config of the kind `release` inherits. -/
def rootName : String := "root"

/-- The name of the config that stands in for missing ones, where that is allowed. -/
def fallbackName : String := "trunk_staging"

/-- A resolved release config. -/
structure Resolved where
  name : String
  /-- The final state of every flag. -/
  flags : Flags
  /-- The files that the result depends on. -/
  filesUsed : NameSet
  priorStages : NameSet
  /-- The unredacted flags of each container. -/
  partitions : NameMap PartitionReport
  report : ReleaseReport
  deriving DecidableEq

end ReleaseFlags
