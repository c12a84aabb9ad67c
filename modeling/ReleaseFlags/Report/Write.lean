import ReleaseFlags.FileTree.Write
import ReleaseFlags.Report.Makefile
import ReleaseFlags.Report.InheritanceGraph

/-!
Writing the reports on release configs to files.
-/

namespace ReleaseFlags

/-- The registry and the tree that reports are written to. -/
structure Workspace where
  tree : FileTree
  registry : Registry

namespace Workspace

/-- An action on the workspace. What it changed before an error stays changed. -/
abbrev Action (α : Type) := ExceptT Error (StateM Workspace) α

/-- Runs an action on the registry. -/
def onRegistry {α : Type} (action : Session α) : Action α := do
  let workspace ← get
  let (result, registry) := action.run workspace.registry
  set { workspace with registry }
  liftExcept result

/-- Runs an action on the tree. -/
def onTree {α : Type} (action : FileTree.Action α) : Action α := do
  let workspace ← get
  let (result, tree) := action.run workspace.tree
  set { workspace with tree }
  liftExcept (result.mapError Error.file)

end Workspace

open Workspace

/-- Writes the makefile fragment of a config, unless the file has that content already. Tells
whether it was written. -/
def Makefile.write (name target : String) (path : Path) : Action Bool := do
  let content ← onRegistry (Makefile.render name target)
  onTree (FileTree.writeIfChanged path content)

/-- Writes the inheritance graph. -/
def InheritanceGraph.write (path : Path) : Action Unit := do
  onTree (FileTree.write path (InheritanceGraph.render (← get).registry))

namespace PartitionReport

/-- The name of the file with the flags of a partition. -/
def fileName (container : String) : String := "build_flags_" ++ container ++ ".json"

/-- Writes one file for each partition of a resolved config, and gives their paths. -/
def writeAll (resolved : Resolved) (directory : Path) : Action (List Path) :=
  resolved.partitions.entries.mapM fun (container, report) => do
    let path := directory.join (fileName container)
    onTree (FileTree.save path report.sortByName.data)
    return path

end PartitionReport

/-- Writes the combined report. -/
def CombinedReport.write (report : CombinedReport) (path : Path) : Action Unit :=
  onTree (FileTree.save path report.data)

namespace ContributionReports

/-- The directories that may give values to each config, by name. All configs must be
resolved. -/
def ofRegistry (registry : Registry) : Except Error ContributionReports := do
  let reports ← registry.configs.values.mapM fun config =>
    match registry.resolved? config.name with
    | some resolved => return ⟨config.name, resolved.report.valueDirectories⟩
    | none => throw (.notResolved config.name)
  return ⟨reports⟩

/-- Writes the contribution reports. -/
def write (path : Path) : Action Unit := do
  let reports ← liftExcept (ofRegistry (← get).registry)
  onTree (FileTree.save path reports.data)

end ContributionReports

end ReleaseFlags
