import ReleaseFlags.CommandLine.Arguments
import ReleaseFlags.Registry.Load
import ReleaseFlags.Report.Write

/-!
Running the command line: scan the config directories, resolve the release
config that was asked for and write its files.
-/

namespace ReleaseFlags

/-- Why a run failed. -/
inductive RunError where
  | engine (error : Error)
  /-- None of the usual config directories exists below the top. -/
  | noMaps (top : Path)
  deriving DecidableEq, Repr

/-- The text of the error. -/
def RunError.message : RunError → String
  | engine error => error.message
  | noMaps top => "No release config maps found under " ++ top.text ++ "; pass --map"

namespace Arguments

/-- The config directories that are used when none is given. -/
def usualDirectories : List String :=
  ["build/release", "vendor/google_shared/build/release", "vendor/google/release"]

def topPath (arguments : Arguments) : Path := Path.ofText arguments.top

/-- The directory of the outputs. -/
def outPath (arguments : Arguments) : Path :=
  (Path.ofText arguments.outDir).under arguments.topPath

/-- The config directories to scan: the given ones, or the usual ones that hold a map file. -/
def directories (arguments : Arguments) (tree : FileTree) : Except RunError (List String) :=
  if arguments.maps ≠ [] then .ok arguments.maps
  else
    let found := usualDirectories.filter fun directory =>
      tree.isFile (((Path.ofText directory).under arguments.topPath).join DirectoryEntry.map.name)
    if found = [] then .error (.noMaps arguments.topPath) else .ok found

/-- The options of resolution. -/
def options (arguments : Arguments) : Options :=
  { Options.default with
    buildVariant := arguments.buildVariant
    policy := if arguments.requireBuildVariant then .required else .bestEffort }

/-- Scans the config directories of a tree. -/
def scan (arguments : Arguments) (tree : FileTree) : Except RunError Registry := do
  let directories ← arguments.directories tree
  let source : Source := ⟨tree, Path.ofText arguments.topPath.text⟩
  let registry ← (source.scan directories).mapError .engine
  return { registry with allowMissing := arguments.allowMissing }.setOptions arguments.options

/-! ### The names of the outputs -/

/-- The path of the makefile fragment for a release. -/
def makefilePath (arguments : Arguments) (release : String) : Path :=
  arguments.outPath.join ("release_config-" ++ arguments.product ++ "-" ++ release ++ ".varmk")

/-- The path of the combined report. -/
def reportPath (arguments : Arguments) : Path :=
  arguments.outPath.join
    ("release_config-" ++ arguments.product ++ "-" ++ arguments.release ++ ".json")

/-- The path of the contribution reports. -/
def contributionsPath (arguments : Arguments) : Path :=
  arguments.outPath.join ("release_config_contributions-" ++ arguments.product ++ ".json")

/-- The path of the inheritance graph. -/
def graphPath (arguments : Arguments) : Path :=
  arguments.outPath.join ("inheritance_graph-" ++ arguments.product ++ ".dot")

/-! ### Writing the outputs -/

open Workspace

/-- Writes the fragments of all configs but the target, and gives their paths. -/
def writeOtherMakefiles (arguments : Arguments) (target : String) : Action (List Path) := do
  let names := (← get).registry.configs.names.filter (· ≠ target)
  names.mapM fun name => do
    let path := arguments.makefilePath name
    let _ ← Makefile.write name name path
    return path

/-- Writes the JSON reports, and gives their paths. -/
def writeReports (arguments : Arguments) : Action (List Path) := do
  let report ← onRegistry (Registry.generateAll arguments.release)
  report.write arguments.reportPath
  ContributionReports.write arguments.contributionsPath
  return [arguments.reportPath, arguments.contributionsPath]

/-- Resolves the release config and writes all outputs that are asked for. Gives their paths in
the order of writing. -/
def writeOutputs (arguments : Arguments) : Action (List Path) := do
  let target := (← liftExcept ((← get).registry.config arguments.release)).name
  let makefile := arguments.makefilePath arguments.release
  let _ ← Makefile.write target arguments.release makefile
  let others ← if arguments.allMake then arguments.writeOtherMakefiles target else pure []
  let resolved ← onRegistry (Registry.generate target)
  let partitions ← PartitionReport.writeAll resolved arguments.outPath
  let reports ← if arguments.json then arguments.writeReports else pure []
  let graph ← if arguments.inheritance then do
      InheritanceGraph.write arguments.graphPath
      pure [arguments.graphPath]
    else pure []
  return makefile :: others ++ partitions ++ reports ++ graph

end Arguments

/-! ### The outcome of a run -/

/-- What a run prints and leaves behind. -/
structure Outcome where
  /-- The text on standard output. -/
  output : String
  failure : Option RunError
  tree : FileTree

/-- Does what the arguments say in a tree. -/
def Arguments.run (arguments : Arguments) (tree : FileTree) : Outcome :=
  match arguments.scan tree with
  | .error e => ⟨"", some e, tree⟩
  | .ok registry =>
    if arguments.list then
      ⟨String.join (registry.listableNames.map (· ++ "\n")), none, tree⟩
    else
      match arguments.writeOutputs.run ⟨tree, registry⟩ with
      | (.error e, workspace) => ⟨"", some (.engine e), workspace.tree⟩
      | (.ok paths, workspace) =>
        let lines := paths.map fun path => "wrote " ++ path.text ++ "\n"
        ⟨if arguments.verbose then String.join lines else "", none, workspace.tree⟩

end ReleaseFlags
