import ReleaseFlags.NameMap
import ReleaseFlags.Message.File
import ReleaseFlags.Text.Words

/-!
Trees of files, directories and symbolic links.

A place in the tree is told by its location: the names on the way from the top,
each after a slash, without links. The top itself has the empty location. A path,
in contrast, is a text that may lead through links and through `..`; resolving it
gives the location where it leads. Paths and names have a limited length, counted
in bytes, and a path leads through a limited number of links.
-/

namespace ReleaseFlags

/-- What is found at a location. -/
inductive FileNode where
  | directory
  /-- A file with its text; without one, its bytes are no text. -/
  | file (content : Option String)
  | link (target : String)
  deriving DecidableEq, Repr, Inhabited

/-- A tree of files, seen from a working directory. -/
structure FileTree where
  /-- What is at each location below the top. -/
  nodes : NameMap FileNode
  /-- The location of the working directory. -/
  workingDirectory : String
  deriving DecidableEq

namespace FileTree

/-- The location of a name in a directory. -/
def childOf (directory name : String) : String := directory ++ "/" ++ name

/-- The location of the directory above; the top is above itself. -/
def above (location : String) : String :=
  match Path.splitAtLast '/' location.toList with
  | some (before, _) => .ofList before
  | none => ""

/-- What is at a location. The top is a directory. -/
def node? (tree : FileTree) (location : String) : Option FileNode :=
  if location = "" then some .directory else tree.nodes.get? location

/-- The components of a path between slashes. -/
def components (path : String) : List String := (pieces '/' path.toList).map String.ofList

/-- The number of bytes that a name may have. -/
def nameLimit : Nat := 255

/-- True if a name is longer than a name may be. -/
def isLongName (name : String) : Bool := nameLimit < name.utf8ByteSize

/-- The number of bytes that a path may have. -/
def pathLimit : Nat := 4095

/-- Why a text leads nowhere in any tree, if that is so. -/
def unusable? (path : String) : Option DeadEnd :=
  if path = "" then some .missing
  else if '\x00' ∈ path.toList then some .nullCharacter
  else if pathLimit < path.utf8ByteSize then some .nameTooLong
  else none

/-- Follows components from a location. What to do at a link is left to `jump`, which is given
the directory of the link, its target and the components after it; what to do where nothing is, to
`gap`, which is given the location and the components after it. -/
def descend (tree : FileTree) (gap : String → List String → Except DeadEnd String)
    (jump : String → String → List String → Except DeadEnd String) :
    String → List String → Except DeadEnd String
  | here, [] => .ok here
  | here, name :: rest =>
    if tree.node? here ≠ some .directory then .error .notDirectory
    else if name = "" ∨ name = "." then descend tree gap jump here rest
    else if name = ".." then descend tree gap jump (above here) rest
    else if isLongName name then .error .nameTooLong
    else match tree.node? (childOf here name) with
      | none => gap (childOf here name) rest
      | some (.link target) => jump here target rest
      | some _ => descend tree gap jump (childOf here name) rest

/-- Where a path begins: at the top if it is absolute, and otherwise at the given location. -/
def startOf (path here : String) : String := if path.toList.head? = some '/' then "" else here

/-- Follows components from a location and through at most the given number of links, with
`gap` where nothing is. -/
def followOr (tree : FileTree) (gap : String → List String → Except DeadEnd String) :
    Nat → String → List String → Except DeadEnd String
  | 0 => tree.descend gap fun _ _ _ => .error .tooManyLinks
  | links + 1 => tree.descend gap fun here target rest =>
    followOr tree gap links (startOf target here) (components target ++ rest)

/-- The number of links that one path may lead through. -/
def linkLimit : Nat := 40

/-- The location where components lead from a location. -/
def follow (tree : FileTree) : String → List String → Except DeadEnd String :=
  tree.followOr (fun _ _ => .error .missing) linkLimit

/-- The location where a path leads. The empty path leads nowhere. -/
def resolve (tree : FileTree) (path : String) : Except DeadEnd String :=
  match unusable? path with
  | some reason => .error reason
  | none => tree.follow (startOf path tree.workingDirectory) (components path)

/-- The location where a path leads, also if only the last name on the way is missing: a file can
be made there. -/
def resolveNew (tree : FileTree) (path : String) : Except DeadEnd String :=
  match unusable? path with
  | some reason => .error reason
  | none =>
    let gap (location : String) (rest : List String) : Except DeadEnd String :=
      if rest = [] then .ok location else .error .missing
    tree.followOr gap linkLimit (startOf path tree.workingDirectory) (components path)

/-- What a path leads to. It is never a link. -/
def find? (tree : FileTree) (path : Path) : Option FileNode :=
  match tree.resolve path.text with
  | .ok location => tree.node? location
  | .error _ => none

def «exists» (tree : FileTree) (path : Path) : Bool := (tree.find? path).isSome

def isDirectory (tree : FileTree) (path : Path) : Bool := tree.find? path = some .directory

def isFile (tree : FileTree) (path : Path) : Bool :=
  match tree.find? path with
  | some (.file _) => true
  | _ => false

/-- The text of the file at a path. -/
def read (tree : FileTree) (path : Path) : Except FileError String :=
  match tree.find? path with
  | some (.file (some content)) => .ok content
  | _ => .error (.io path.text)

/-- The message in the file at a path. -/
def load {α : Type} (tree : FileTree) (decode : Format → Decoder α) (path : Path) :
    Except FileError α := do
  parseFile decode path (← tree.read path)

end FileTree

end ReleaseFlags
