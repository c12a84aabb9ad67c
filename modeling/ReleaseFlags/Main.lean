import ReleaseFlags.CommandLine.Run

/-!
The program.

A run happens in a picture of the file system: the files that it may read are
recorded first, and the files that differ afterwards are written.
-/

namespace ReleaseFlags

/-- A part of the file system, as far as it was recorded. -/
structure Picture where
  tree : FileTree
  /-- The locations of the directories whose entries are recorded. -/
  listed : NameSet

namespace Picture

/-- The location where a path of the file system leads, if it leads anywhere. -/
def locate (path : String) : IO (Option String) := do
  try
    let found ← IO.FS.realPath path
    if ← found.pathExists then
      return some (if found.toString = "/" then "" else found.toString)
    else return none
  catch _ => return none

/-- The path of a location in the file system. -/
def pathOf (location : String) : String := if location = "" then "/" else location

/-- Records the directories on the way to a location, and a directory there. -/
def addDirectories (picture : Picture) (location : String) : Picture :=
  let step (state : FileTree × String) (name : String) : FileTree × String :=
    let here := FileTree.childOf state.2 name
    (state.1.place here .directory, here)
  let names := (FileTree.components location).filter (· ≠ "")
  { picture with tree := (names.foldl step (picture.tree, "")).1 }

/-- The text of the file at a location, if it is text. -/
def textAt (location : String) : IO (Option String) := do
  try return String.fromUTF8? (← IO.FS.readBinFile location)
  catch _ => return none

/-- Records what is at a location. -/
def addLocation (picture : Picture) (location : String) : IO Picture := do
  if ← (← IO.FS.realPath (pathOf location)).isDir then
    return picture.addDirectories location
  else
    let picture := picture.addDirectories (FileTree.above location)
    let node := FileNode.file (← textAt location)
    return { picture with tree := picture.tree.place location node }

/-- The target that is recorded for a link that leads nowhere. -/
def nowhere : String := "/nowhere"

/-- A location that every picture holds as a file, so that no path leads on from it. -/
def barrier : String := "/barrier"

/-- What a name in a directory is, if it is a link that leads nowhere. A link of too long a chain is
recorded as a link to itself. -/
def deadLink? (directory name : String) : IO (Option FileNode) := do
  let path := IO.FS.DirEntry.path ⟨pathOf directory, name⟩
  try
    if (← path.symlinkMetadata).type != .symlink then return none
  catch _ => return none
  try
    let _ ← path.metadata
    return none
  catch
    | .noFileOrDirectory .. => return some (.link nowhere)
    | .inappropriateType .. => return some (.link (barrier ++ "/"))
    | _ => return some (.link (FileTree.childOf directory name))

/-- Records a name in a directory and what it leads to. Gives the location where it leads. -/
def addName (picture : Picture) (directory name : String) : IO (Picture × Option String) := do
  let place := FileTree.childOf directory name
  match ← locate place with
  | none =>
    match ← deadLink? directory name with
    | some node => return ({ picture with tree := picture.tree.place place node }, none)
    | none => return (picture, none)
  | some location =>
    let picture ← picture.addLocation location
    if location = place then return (picture, some location)
    else
      return ({ picture with tree := picture.tree.place place (.link location) }, some location)

/-- Records the entries of a directory, and for the given number of levels those of the
directories that they lead to. -/
partial def addEntries (picture : Picture) (levels : Option Nat) (location : String) :
    IO Picture := do
  if picture.listed.contains location then return picture
  let directory ← IO.FS.realPath (pathOf location)
  if !(← directory.isDir) then return picture
  let mut picture := { picture with listed := picture.listed.add location }
  for entry in ← directory.readDir do
    match ← picture.addName location entry.fileName with
    | (more, none) => picture := more
    | (more, some found) =>
      picture ← if levels = some 0 then pure more
        else more.addEntries (levels.map (· - 1)) found
  return picture

/-- Records everything on the way of a path. Gives the location where it leads. -/
def addPath (picture : Picture) (path : Path) : IO (Picture × Option String) := do
  let start := FileTree.startOf path.text picture.tree.workingDirectory
  let mut picture := picture
  let mut here := start
  for name in FileTree.components path.text do
    if name = "" ∨ name = "." then continue
    else if name = ".." then here := FileTree.above here
    else
      let (more, found) ← picture.addName here name
      picture := more
      match found with
      | some location => here := location
      | none => return (picture, none)
  return (picture, some here)

/-- Records a path, and the entries below it for the given number of levels. -/
def addBelow (picture : Picture) (levels : Option Nat) (path : Path) : IO Picture := do
  match ← picture.addPath path with
  | (picture, some location) => picture.addEntries levels location
  | (picture, none) => return picture

/-- Everything that a run may read: the config directories, and the directory of the outputs. -/
def ofArguments (arguments : Arguments) : IO Picture := do
  let workingDirectory := (← locate ".").getD ""
  let blank : FileTree := ⟨NameMap.empty, workingDirectory⟩
  let start : Picture := ⟨blank.place barrier (.file none), NameMap.empty⟩
  let start := start.addDirectories workingDirectory
  let directories :=
    if arguments.maps.isEmpty then Arguments.usualDirectories else arguments.maps
  let paths := directories.map fun directory => (Path.ofText directory).under arguments.topPath
  let picture ← paths.foldlM (fun picture path => picture.addBelow none path) start
  picture.addBelow (some 0) arguments.outPath

end Picture

namespace FileTree

/-- Replaces the content of a file of the file system as a whole. -/
def replaceFile (location content : String) : IO Unit := do
  let name := ((FileTree.components location).getLast?).getD ""
  let draft := childOf (above location) (draftName name)
  IO.FS.writeFile draft content
  IO.FS.rename draft location

/-- Writes what a tree has beyond an earlier one to the file system. -/
def writeChanges (before after : FileTree) : IO Unit :=
  after.nodes.entries.forM fun (location, node) => do
    if before.nodes.get? location ≠ some node then
      match node with
      | .directory => IO.FS.createDirAll location
      | .file (some content) => replaceFile location content
      | _ => pure ()

end FileTree

/-- Does what the arguments say in the file system, and gives the exit code. -/
def Arguments.runHere (arguments : Arguments) : IO UInt32 := do
  let picture ← Picture.ofArguments arguments
  let outcome := arguments.run picture.tree
  FileTree.writeChanges picture.tree outcome.tree
  IO.print outcome.output
  match outcome.failure with
  | none => return 0
  | some error =>
    IO.eprintln ("error: " ++ error.message)
    return 1

end ReleaseFlags

open ReleaseFlags in
/-- Runs the program. -/
def main (arguments : List String) : IO UInt32 := do
  let values ← Arguments.variableNames.mapM fun name => do return (name, ← IO.getEnv name)
  match Arguments.read arguments fun name => (values.lookup name).join with
  | .error (.information _) =>
    IO.println Arguments.usage
    return 0
  | .error .usage =>
    IO.eprintln Arguments.usage
    return 2
  | .ok arguments => arguments.runHere
