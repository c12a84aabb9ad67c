import ReleaseFlags.Value
import ReleaseFlags.Text.Quoted

/-!
Declarations of build flags.

A declaration names a flag, gives its default value and lists the containers
(partitions) that the flag is exported to. Flag names are upper-case identifiers
and container names lower-case ones, in ASCII letters.
-/

namespace ReleaseFlags

/-- How the value of a flag advances through the release stages. -/
inductive Workflow where
  | unspecified
  /-- A truth value that is launched through the stages. -/
  | launch
  /-- The value is chosen by the selection of a prebuilt. -/
  | prebuilt
  /-- The value is maintained by hand. -/
  | manual
  deriving DecidableEq, Repr, Inhabited

/-- The word that stands for the workflow in files. -/
def Workflow.word : Workflow → String
  | unspecified => "UNSPECIFIED_WORKFLOW"
  | launch => "LAUNCH"
  | prebuilt => "PREBUILT"
  | manual => "MANUAL"

/-- All workflows. -/
def Workflow.all : List Workflow := [.unspecified, .launch, .prebuilt, .manual]

/-- What can go wrong with a single flag. The path is that of the file at fault. -/
inductive FlagError where
  /-- The name is no upper-case identifier. -/
  | invalidName (name path : String)
  /-- A container of a declaration is no lower-case identifier. -/
  | invalidContainer (container path : String)
  /-- A plain value is given to a flag that is redacted. -/
  | redacted (name path : String)
  /-- A value for one flag is applied to another. -/
  | nameMismatch (expected found path : String)
  deriving DecidableEq, Repr

/-- The text of the error. -/
def FlagError.message : FlagError → String
  | invalidName name path => path ++ ": invalid flag name " ++ Quoted.quote name
  | invalidContainer container path =>
    path ++ ": flag declaration has invalid container " ++ Quoted.quote container
  | redacted name path => "Cannot set value for redacted flag " ++ name ++ " in " ++ path
  | nameMismatch expected found path =>
    path ++ ": value for flag " ++ found ++ " applied to flag " ++ expected

/-- The declaration of a flag. -/
structure FlagDeclaration where
  name : String
  namespaceName : String
  description : String
  bugs : List String
  /-- The default value. -/
  value : Value
  workflow : Workflow
  /-- The containers that the flag is exported to; none stands for the default containers
  of the directory. -/
  containers : List String
  deriving DecidableEq, Repr, Inhabited

/-- An identifier: one letter, then letters, digits and underscores. -/
def isIdentifier (isLetter : Char → Bool) (text : String) : Bool :=
  match text.toList with
  | [] => false
  | first :: rest => isLetter first && rest.all fun c => isLetter c || c.isDigit || c = '_'

/-- An upper-case identifier. -/
def isFlagName (text : String) : Bool := isIdentifier Char.isUpper text

/-- A lower-case identifier. -/
def isContainerName (text : String) : Bool := isIdentifier Char.isLower text

def checkFlagName (name path : String) : Except FlagError Unit :=
  if isFlagName name then .ok () else .error (.invalidName name path)

def checkContainer (container path : String) : Except FlagError Unit :=
  if isContainerName container then .ok () else .error (.invalidContainer container path)

/-- Checks the name, then the containers in order. -/
def FlagDeclaration.check (declaration : FlagDeclaration) (path : String) :
    Except FlagError Unit := do
  checkFlagName declaration.name path
  declaration.containers.forM fun container => checkContainer container path

end ReleaseFlags
