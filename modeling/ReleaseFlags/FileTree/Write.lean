import ReleaseFlags.FileTree.Basic

/-!
Writing files.

A file is replaced as a whole: whatever was at its place before is gone, also
if that was a link. It can be overwritten as well, which keeps links and changes
the file that they lead to. Missing directories on the way are made. A failed
write may leave some of them behind.
-/

namespace ReleaseFlags

namespace FileTree

/-- An action that may change the tree. What it changed before an error stays changed. -/
abbrev Action (α : Type) := ExceptT FileError (StateM FileTree) α

/-- Puts a node at a location. -/
def place (tree : FileTree) (location : String) (node : FileNode) : FileTree :=
  { tree with nodes := tree.nodes.insert location node }

/-- Makes the directories of a way, as far as they are missing. The components already passed
lead from the start to the location reached. Gives the tree and the location where the way leads,
unless something on it is no directory. -/
def makeOnward (start : String) :
    FileTree → List String → String → List String → FileTree × Option String
  | tree, _, here, [] => (tree, some here)
  | tree, passed, here, name :: rest =>
    if name = "" ∨ name = "." then makeOnward start tree passed here rest
    else if name = ".." then makeOnward start tree (passed ++ [name]) (above here) rest
    else if isLongName name then (tree, none)
    else match tree.node? (childOf here name) with
      | none =>
        let tree := tree.place (childOf here name) .directory
        makeOnward start tree (passed ++ [name]) (childOf here name) rest
      | some _ =>
        match tree.follow start (passed ++ [name]) with
        | .ok there =>
          if tree.node? there = some .directory then
            makeOnward start tree (passed ++ [name]) there rest
          else (tree, none)
        | .error _ => (tree, none)

/-- Makes the directory at a path and those on the way to it, as far as they are missing. Gives
the tree and the location of the directory, unless something on the way is no directory. The empty
path is the working directory. -/
def makeDirectories (tree : FileTree) (path : String) : FileTree × Option String :=
  if path ≠ "" ∧ (unusable? path).isSome then (tree, none)
  else
    let start := startOf path tree.workingDirectory
    makeOnward start tree [] start (components path)

/-- The directory of a path as text, and the name in it. There is no name if the path ends in
a component that stands for a directory. -/
def splitPath (path : String) : String × Option String :=
  let isBlank (component : String) : Bool := component = "" ∨ component = "."
  match (components path).reverse with
  | [] => ("", none)
  | last :: front =>
    match (last :: front).dropWhile isBlank with
    | [] => ("", none)
    | name :: front =>
      let name? := if isBlank last ∨ name = ".." then none else some name
      match front.dropWhile isBlank, front.getLast? with
      | [], none => ("", name?)
      | [], some first => (if first = "" then "/" else first, name?)
      | kept, _ => ("/".intercalate kept.reverse, name?)

/-- The name under which the new content of a file is stored until it is complete. -/
def draftName (name : String) : String := "." ++ name ++ ".tmp"

/-- Writes a text to the file at a path. -/
def write (path : Path) (content : String) : Action Unit := do
  let (directory, name?) := splitPath path.text
  let (tree, location?) := (← get).makeDirectories directory
  set tree
  match location?, name? with
  | none, _ => throw (.io directory)
  | some _, none => throw (.io path.text)
  | some location, some name =>
    if (unusable? path.text).isSome ∨ isLongName (draftName name) ∨
        tree.node? (childOf location name) = some .directory then
      throw (.io path.text)
    set (tree.place (childOf location name) (.file (some content)))

/-- Puts a text into the file where a path leads. Links stay; one to a missing name in a directory
leads to a new file. -/
def overwrite (path : Path) (content : String) : Action Unit := do
  let directory := (splitPath path.text).1
  let (tree, location?) := (← get).makeDirectories directory
  set tree
  if location?.isNone then throw (.io directory)
  match tree.resolveNew path.text with
  | .error _ => throw (.io path.text)
  | .ok location =>
    if tree.node? location = some .directory then throw (.io path.text)
    set (tree.place location (.file (some content)))

/-- Writes a text to the file at a path unless it is its content already. Tells whether the
file was written. -/
def writeIfChanged (path : Path) (content : String) : Action Bool := do
  let tree ← get
  if tree.isFile path then
    if (← tree.read path) = content then return false
  write path content
  return true

/-- Writes the data of a message to the file at a path. -/
def save (path : Path) (data : Data) : Action Unit := do
  write path (← renderFile path data)

/-- Removes the file or link at a path. Tells whether there was one. -/
def remove (tree : FileTree) (path : Path) : FileTree × Bool :=
  let (directory, name?) := splitPath path.text
  let location? :=
    tree.follow (startOf directory tree.workingDirectory) (components directory)
  match location?, if (unusable? path.text).isSome then none else name? with
  | .ok location, some name =>
    match tree.node? (childOf location name) with
    | some (.file _) | some (.link _) =>
      ({ tree with nodes := tree.nodes.erase (childOf location name) }, true)
    | _ => (tree, false)
  | _, _ => (tree, false)

end FileTree

end ReleaseFlags
