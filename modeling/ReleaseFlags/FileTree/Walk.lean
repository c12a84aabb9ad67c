import ReleaseFlags.FileTree.Basic

/-!
Listing the files below a directory.

The entries of each directory are visited by increasing name, and a directory is
listed at its place among them, so the list is the same wherever the tree is
stored. Links are followed; a link that leads nowhere, or back to a directory on
the way from the start, is an error. The links on the way to an entry count as
well, since each entry is looked up by its whole path.
-/

namespace ReleaseFlags

namespace FileTree

/-- The name of an entry of the directory, if the location is one. -/
def nameIn? (directory location : String) : Option String :=
  match Path.stripFront (directory ++ "/").toList location.toList with
  | some name => if name = [] ∨ '/' ∈ name then none else some (.ofList name)
  | none => none

/-- The entries of the directory at a location, by increasing name. -/
def children (tree : FileTree) (directory : String) : List (String × FileNode) :=
  tree.nodes.entries.filterMap fun (location, node) =>
    (nameIn? directory location).map fun name => (name, node)

/-- The path of a name below a path, as text. -/
def joinName (path name : String) : String :=
  if path.toList.getLast? = some '/' then path ++ name else path ++ "/" ++ name

/-- The files below a directory, at most the given number of levels deep.

`ancestors` holds the directories from the start to this one, the nearest first, each with its
location and the path on which it was reached. -/
def walkFrom (tree : FileTree) : Nat → List (String × String) → String → String →
    Except FileError (List String)
  | 0, _, _, path => .error (.io path)
  | depth + 1, ancestors, directory, path => do
    let lists ← (tree.children directory).mapM fun (name, node) => do
      let entry := joinName path name
      let enter (location : String) : Except FileError (List String) :=
        walkFrom tree depth ((location, entry) :: ancestors) location entry
      match node with
      | .file _ => return [entry]
      | .directory =>
        match unusable? entry with
        | some reason => throw (.walk entry (.deadEnd reason))
        | none => enter (childOf directory name)
      | .link _ =>
        match tree.resolve entry with
        | .error reason => throw (.walk entry (.deadEnd reason))
        | .ok location =>
          if tree.node? location = some .directory then
            match ancestors.find? fun other => other.1 = location with
            | some other => throw (.walk entry (.loop other.2))
            | none => enter location
          else return [entry]
    return lists.flatten

/-- More levels than a walk of the tree can have. Each level below a link is a level of the
tree, and the directories that links lead to on one way are different ones. -/
def depthBound (tree : FileTree) : Nat := (tree.nodes.size + 1) * (tree.nodes.size + 1)

/-- The files with an extension below a directory, in order. A path that leads to no directory
has none. -/
def filesBelow (tree : FileTree) (directory : Path) (fileExtension : String) :
    Except FileError (List Path) :=
  match tree.resolve directory.text with
  | .error _ => .ok []
  | .ok location =>
    if tree.node? location ≠ some .directory then .ok []
    else do
      let files ← tree.walkFrom tree.depthBound [(location, directory.text)] location directory.text
      return (files.map Path.ofText).filter fun file => file.fileExtension = some fileExtension

end FileTree

end ReleaseFlags
