import ReleaseFlags.Path
import ReleaseFlags.Json.Reader
import ReleaseFlags.Json.Printer
import ReleaseFlags.Toml.Reader
import ReleaseFlags.Toml.Printer
import ReleaseFlags.Message.Fields

/-!
Messages as the contents of files. The extension of a file tells its format.
-/

namespace ReleaseFlags

/-- Why a path leads nowhere. -/
inductive DeadEnd where
  | missing
  /-- Something on the way is no directory. -/
  | notDirectory
  | tooManyLinks
  /-- The path, or a name in it, is longer than a path or name may be. -/
  | nameTooLong
  /-- The path has a character that no path can have. -/
  | nullCharacter
  deriving DecidableEq, Repr

/-- The text of the reason. -/
def DeadEnd.message : DeadEnd → String
  | missing => "No such file or directory (os error 2)"
  | notDirectory => "Not a directory (os error 20)"
  | tooManyLinks => "Too many levels of symbolic links (os error 40)"
  | nameTooLong => "File name too long (os error 36)"
  | nullCharacter => "file name contained an unexpected NUL byte"

/-- Why a directory could not be listed to the end. -/
inductive WalkFailure where
  /-- A link leads nowhere. -/
  | deadEnd (reason : DeadEnd)
  /-- A link leads back to a directory that is being listed. -/
  | loop (ancestor : String)
  deriving DecidableEq, Repr

/-- What can go wrong with a file or directory. -/
inductive FileError where
  /-- The file cannot be read or written, or is no text. -/
  | io (path : String)
  /-- The directory cannot be listed, because of the entry at the path. -/
  | walk (path : String) (failure : WalkFailure)
  /-- The content is no message of the expected type. -/
  | parse (format : Format) (path : String)
  | unsupportedFormat (fileExtension : String)
  deriving DecidableEq, Repr

namespace FileError

/-- What happened and where. -/
def summary : FileError → String
  | io path => "I/O error at " ++ path
  | walk path _ => "Failed to walk " ++ path
  | parse format path => "Failed to parse " ++ format.name ++ " file " ++ path
  | unsupportedFormat fileExtension => "Unsupported file format: " ++ fileExtension

/-- The text of the error: the summary, and the reason where one is known. -/
def message : FileError → String
  | walk path (.deadEnd reason) =>
    (walk path (.deadEnd reason)).summary ++ ": IO error for operation on " ++ path ++ ": " ++
      reason.message
  | walk path (.loop ancestor) =>
    (walk path (.loop ancestor)).summary ++ ": File system loop found: " ++ path ++
      " points to an ancestor " ++ ancestor
  | error => error.summary

end FileError

/-- The format of the file at a path. -/
def Format.ofPath (path : Path) : Except FileError Format :=
  let fileExtension := path.fileExtension.getD ""
  match Format.ofExtension? fileExtension with
  | some format => .ok format
  | none => .error (.unsupportedFormat fileExtension)

/-- The data of a document in a format. -/
def Format.read (format : Format) (content : String) : Option Data :=
  match format with
  | .toml => Toml.read content
  | .json => Json.read content

/-- The document of the data in a format. -/
def Format.print (format : Format) (data : Data) : String :=
  match format with
  | .toml => Toml.print data
  | .json => Json.print data

/-- Reads a message from the content of the file at a path. -/
def parseFile {α : Type} (decode : Format → Decoder α) (path : Path) (content : String) :
    Except FileError α := do
  let format ← Format.ofPath path
  match format.read content >>= decode format with
  | some message => return message
  | none => throw (.parse format path.text)

/-- The content of the file at a path for the data of a message. It ends with a line feed. -/
def renderFile (path : Path) (data : Data) : Except FileError String := do
  let content := (← Format.ofPath path).print data
  return if content.toList.getLast? = some '\n' then content else content ++ "\n"

end ReleaseFlags
