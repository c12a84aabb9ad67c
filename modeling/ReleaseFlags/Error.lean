import ReleaseFlags.Message.File
import ReleaseFlags.Message.Release

/-!
What can go wrong while config directories are read and release configs are
resolved. Every error names the release config, flag or file to look at.
-/

namespace ReleaseFlags

/-- What can go wrong with a set of config directories. -/
inductive Error where
  /-- A config directory is listed twice. -/
  | duplicateDirectory (directory : String)
  /-- A config directory has no map file. -/
  | missingMap (path : String)
  /-- Two map files give an alias different targets. -/
  | aliasRedefined (name previous target path : String)
  /-- An alias has the name of a release config. -/
  | aliasShadowsConfig (name : String)
  /-- The target of an alias is neither a release config nor an alias. -/
  | danglingAlias (name target : String)
  /-- Following an alias leads round in a circle. -/
  | aliasLoop (name : String) (trace : List String)
  /-- A flag that the engine assembles is declared. -/
  | reservedFlag (name path : String)
  | flagAlreadyDeclared (name path existing : String)
  /-- A declaration hides its flag. -/
  | redactedByDefault (name path : String)
  /-- A release file is not named after its release config. -/
  | releaseFileName (name path : String)
  /-- A value file is not named after its flag. -/
  | valueFileName (name path : String)
  /-- Two files of one directory contribute to the same release config. -/
  | duplicateContribution (name path existing : String)
  | kindMismatch (name path : String) (expected found : ReleaseKind)
  /-- There is no release config of a name; the trace tells which aliases were followed. -/
  | configNotFound (name : String) (trace : List String)
  /-- A release config inherits itself. -/
  | inheritanceLoop (name : String)
  /-- A release config tied to a platform build inherits an alias. -/
  | inheritFromAlias (name aliasName : String)
  /-- A release config inherits one of a kind that it may not inherit. -/
  | inheritanceKindMismatch (name : String) (kind : ReleaseKind) (parent : String)
      (parentKind : ReleaseKind)
  | missingInheritedFlag (flag parent : String)
  /-- A value is given to a flag that is not declared. -/
  | undefinedFlag (flag path : String)
  /-- A value is given in a directory before the one that declares the flag. -/
  | setBeforeDeclare (flag declaredIn path : String)
  /-- The root config gives a value to a flag that is not maintained by hand. -/
  | nonManualInRoot (flag path : String)
  /-- A release config for value sets only gives a value to a flag. -/
  | aconfigFlagsOnly (name flag path : String)
  /-- Two directories that exclude each other contribute to a release config. -/
  | exclusiveDirectories (name first second : String)
  /-- A build variant config is required and cannot be inherited. -/
  | buildVariantUnavailable (name variant reason : String)
  | notResolved (name : String)
  | flag (error : FlagError)
  | file (error : FileError)
  deriving DecidableEq, Repr

namespace Error

/-- The names of a trace, in order. -/
def arrows (trace : List String) : String := " -> ".intercalate trace

/-- The text of the error. -/
def message : Error → String
  | duplicateDirectory directory => "Duplicate config directory " ++ directory
  | missingMap path => "No release config map at " ++ path
  | aliasRedefined name previous target path =>
    path ++ ": alias " ++ name ++ " redefined from " ++ previous ++ " to " ++ target
  | aliasShadowsConfig name => "Alias " ++ name ++ " is a declared release config"
  | danglingAlias name target =>
    "Alias " ++ name ++ " points to non-existing config " ++ target
  | aliasLoop name trace => "Alias loop detected for " ++ name ++ ": " ++ arrows trace
  | reservedFlag name path => path ++ ": " ++ name ++ " is a reserved build flag"
  | flagAlreadyDeclared name path existing =>
    "Duplicate definition of " ++ name ++ " in " ++ path ++ ": already declared in " ++ existing
  | redactedByDefault name path => name ++ " may not be redacted by default (" ++ path ++ ")"
  | releaseFileName name path => path ++ " incorrectly declares release config " ++ name
  | valueFileName name path => path ++ " incorrectly sets value for flag " ++ name
  | duplicateContribution name path existing =>
    path ++ ": release config " ++ name ++ " already has a contribution from " ++ existing
  | kindMismatch name path expected found =>
    path ++ ": mismatching release_config_type " ++ found.word ++ " for " ++ name ++
      " (declared as " ++ expected.word ++ ")"
  | configNotFound name trace => "Missing config " ++ name ++ ". Trace=" ++ arrows trace
  | inheritanceLoop name => "Loop detected for release config " ++ name
  | inheritFromAlias name target => name ++ " cannot inherit from alias " ++ target
  | inheritanceKindMismatch name kind parent parentKind =>
    "Release config " ++ name ++ " (type '" ++ kind.word ++ "') cannot inherit from " ++ parent ++
      " (type '" ++ parentKind.word ++ "')"
  | missingInheritedFlag flagName parent => "Could not inherit flag " ++ flagName ++ " from " ++ parent
  | undefinedFlag flagName path => "Setting value for undefined flag " ++ flagName ++ " in " ++ path
  | setBeforeDeclare flagName declaredIn path =>
    "Setting value for flag " ++ flagName ++ " (declared in " ++ declaredIn ++ ") not allowed in " ++
      path
  | nonManualInRoot flagName path =>
    "Setting value for non-MANUAL flag " ++ flagName ++ " is not allowed in " ++ path
  | aconfigFlagsOnly name flagName path =>
    name ++ " does not allow build flag overrides: " ++ flagName ++ " set in " ++ path
  | exclusiveDirectories name first second =>
    name ++ " is declared in both " ++ first ++ " and " ++ second
  | buildVariantUnavailable name variant reason =>
    "Release config " ++ name ++ " requires build variant " ++ variant ++ ": " ++ reason
  | notResolved name => "Release config " ++ name ++ " has not been resolved"
  | flag error => error.message
  | file error => error.message

end Error

end ReleaseFlags
