import ReleaseFlags.Flag.Declaration
import ReleaseFlags.NameMap

/-!
The state of a flag within one release config.

A flag starts with its declared default and is changed by assignments. Every
successful assignment leaves a tracepoint, so the traces tell where the value
came from. A redacting assignment hides the flag for good: later assignments
must redact as well.
-/

namespace ReleaseFlags

/-- Where a value was established or changed. -/
structure Tracepoint where
  /-- The file that gave the value. -/
  source : String
  value : Value
  deriving DecidableEq, Repr, Inhabited

/-- A value given to a flag by a file. -/
structure Assignment where
  /-- The file that gives the value. -/
  path : String
  /-- The name of the flag. -/
  name : String
  value : Value
  /-- The assignment hides the flag instead of setting it. -/
  redacted : Bool
  deriving DecidableEq, Repr, Inhabited

namespace Assignment

/-- The assignment of a plain value. -/
def plain (path name : String) (value : Value) : Assignment := ⟨path, name, value, false⟩

/-- The assignment that hides a flag. -/
def redaction (path name : String) : Assignment := ⟨path, name, .obsolete, true⟩

end Assignment

/-- The state of a flag. -/
structure FlagState where
  declaration : FlagDeclaration
  /-- The index of the config directory that declares the flag. A flag without one is
  assembled by the engine and may be set anywhere. -/
  declarationIndex : Option Nat
  value : Value
  /-- Where values came from, oldest first. -/
  traces : List Tracepoint
  redacted : Bool
  deriving DecidableEq, Repr, Inhabited

/-- A flag as reports show it. -/
structure FlagReport where
  declaration : FlagDeclaration
  value : Value
  traces : List Tracepoint
  deriving DecidableEq, Repr, Inhabited

namespace FlagState

/-- A flag as its declaration, found in a file, leaves it. -/
def declare (declaration : FlagDeclaration) (index : Option Nat) (source : String) : FlagState where
  declaration := declaration
  declarationIndex := index
  value := declaration.value
  traces := [⟨source, declaration.value⟩]
  redacted := false

def name (flag : FlagState) : String := flag.declaration.name

/-- Hides the flag. Its traces stay. -/
def redact (flag : FlagState) : FlagState := { flag with redacted := true, value := .obsolete }

/-- Appends a tracepoint. -/
def trace (flag : FlagState) (point : Tracepoint) : FlagState :=
  { flag with traces := flag.traces ++ [point] }

/-- Applies an assignment and records it in the traces. -/
def assign (flag : FlagState) (a : Assignment) : Except FlagError FlagState :=
  if a.name ≠ flag.name then .error (.nameMismatch flag.name a.name a.path)
  else if a.redacted then .ok (flag.redact.trace ⟨a.path, .obsolete⟩)
  else if flag.redacted then .error (.redacted flag.name a.path)
  else .ok ({ flag with value := a.value }.trace ⟨a.path, a.value⟩)

/-- The file that declares the flag. -/
def declaredIn (flag : FlagState) : String := (flag.traces.head?.map Tracepoint.source).getD ""

/-- The file that set the flag last. -/
def setIn (flag : FlagState) : String := (flag.traces.getLast?.map Tracepoint.source).getD ""

/-- True when something after the declaration assigned a value. -/
def isOverridden (flag : FlagState) : Bool := 1 < flag.traces.length

/-- The report of the flag with its traces. -/
def report (flag : FlagState) : FlagReport := ⟨flag.declaration, flag.value, flag.traces⟩

/-- The report without traces; a redacted flag has none. -/
def reportWithoutTraces (flag : FlagState) : Option FlagReport :=
  if flag.redacted then none else some ⟨flag.declaration, flag.value, []⟩

end FlagState

/-- The states of the flags of a release config, by flag name. -/
abbrev Flags := NameMap FlagState

/-- Adds a flag under its own name; a flag of that name is replaced. -/
def Flags.put (flags : Flags) (flag : FlagState) : Flags := NameMap.insert flags flag.name flag

/-! ### The flags that the engine itself knows by name -/

namespace KnownFlag

/-- Assembled by the engine from the value sets of all contributions. -/
def aconfigValueSets : String := "RELEASE_ACONFIG_VALUE_SETS"

/-- Names further release configs whose value sets are exported. -/
def extraReleaseConfigs : String := "RELEASE_ACONFIG_EXTRA_RELEASE_CONFIGS"

/-- The default permission, exported for each extra release config. -/
def flagDefaultPermission : String := "RELEASE_ACONFIG_FLAG_DEFAULT_PERMISSION"

/-- When not empty, a release config inherits the build variant config too. -/
def useVariantFlags : String := "RELEASE_BUILD_USE_VARIANT_FLAGS"

/-- Set to the upper-case name of a release config tied to a platform build. -/
def platformVersion : String := "RELEASE_PLATFORM_VERSION"

end KnownFlag

/-- The source of values that the engine assembles itself. -/
def engineSource : String := "$release-config"

end ReleaseFlags
