/-!
Paths written with forward slashes.

Every path that reaches an output is kept in this form, whatever the platform:
backslashes are turned into slashes and trailing slashes are dropped, except
that the root stays a single slash. The functions that take a path apart look
at its text only; which files there are is the matter of `FileTree`.
-/

namespace ReleaseFlags

/-- A path as text, components separated by slashes. -/
structure Path where
  text : String
  deriving DecidableEq, Repr, Inhabited

namespace Path

/-- Turns backslashes into slashes. -/
def forward (text : List Char) : List Char :=
  text.map fun c => if c = '\\' then '/' else c

/-- Drops the slashes at the end. -/
def dropTrailingSlashes (text : List Char) : List Char :=
  (text.reverse.dropWhile (· = '/')).reverse

/-- Forward slashes only, and none at the end unless there is nothing else. -/
def normalize (text : List Char) : List Char :=
  match dropTrailingSlashes (forward text) with
  | [] => (forward text).take 1
  | kept => kept

/-- The path written by a text. -/
def ofText (text : String) : Path := ⟨.ofList (normalize text.toList)⟩

/-- The path of a segment below a path. Below the empty path and below the current
directory it is the segment alone. -/
def join (p : Path) (segment : String) : Path :=
  let segment := String.ofList (forward segment.toList)
  if p.text = "" ∨ p.text = "." then ofText segment
  else if p.text.toList.getLast? = some '/' then ofText (p.text ++ segment)
  else ofText (p.text ++ "/" ++ segment)

/-- True for a path from the root, and for one that starts with a drive such as `C:/`. -/
def isAbsolute (p : Path) : Bool :=
  match p.text.toList with
  | '/' :: _ => true
  | drive :: ':' :: '/' :: _ => drive.isAlpha
  | _ => false

/-- The path as seen from a directory: an absolute path stays, another one is joined to it. -/
def under (p root : Path) : Path := if p.isAbsolute then p else root.join p.text

/-- Splits a text at its last occurrence of a character: what is before and what is after. -/
def splitAtLast (c : Char) : List Char → Option (List Char × List Char)
  | [] => none
  | x :: rest =>
    match splitAtLast c rest with
    | some (before, after) => some (x :: before, after)
    | none => if x = c then some ([], rest) else none

/-- The directory that holds the path: the text before the last slash. -/
def parent (p : Path) : Option Path :=
  match splitAtLast '/' (dropTrailingSlashes p.text.toList) with
  | none => none
  | some ([], _) => some ⟨"/"⟩
  | some (before, _) => some ⟨.ofList before⟩

/-- The text after the last slash, trailing slashes aside. -/
def fileNameChars (p : Path) : List Char :=
  let kept := dropTrailingSlashes p.text.toList
  match splitAtLast '/' kept with
  | none => kept
  | some (_, after) => after

/-- The last component of the path; the root has none. -/
def fileName (p : Path) : Option String :=
  if p.fileNameChars = [] then none else some (.ofList p.fileNameChars)

/-- The file name without its extension. A dot at the start begins no extension. -/
def fileStem (p : Path) : Option String :=
  if p.fileNameChars = [] then none
  else match splitAtLast '.' p.fileNameChars with
    | some (before@(_ :: _), _) => some (.ofList before)
    | _ => some (.ofList p.fileNameChars)

/-- What follows the last dot of the file name, unless that dot is its first character. -/
def fileExtension (p : Path) : Option String :=
  match splitAtLast '.' p.fileNameChars with
  | some (_ :: _, after) => some (.ofList after)
  | _ => none

/-- Takes a text off the front of another. -/
def stripFront : List Char → List Char → Option (List Char)
  | [], text => some text
  | _ :: _, [] => none
  | c :: front, x :: text => if c = x then stripFront front text else none

/-- True if the path is the directory or lies below it. Whole components are compared: a
sibling whose name begins with the directory's name is not below it. -/
def startsWithDir (p : Path) (dir : String) : Bool :=
  match stripFront (dropTrailingSlashes dir.toList) p.text.toList with
  | some [] => true
  | some (c :: _) => c = '/'
  | none => false

end Path

instance : ToString Path := ⟨Path.text⟩

end ReleaseFlags
