import ReleaseFlags.Error
import ReleaseFlags.ReleaseConfig

/-!
The registry of all release configs, aliases and declared flags.

A name leads to a release config directly or through a chain of aliases. Chains
are followed until a name comes that is no alias; a name that comes twice shows
that the chain is a circle.
-/

namespace ReleaseFlags

/-- What to do when flags of a build variant are asked for and cannot be found. -/
inductive VariantPolicy where
  /-- Go on without them. -/
  | bestEffort
  /-- Report an error. -/
  | required
  deriving DecidableEq, Repr

/-- Settings of resolution that do not come from config directories. -/
structure Options where
  /-- The name of the build variant config to inherit on request. -/
  buildVariant : Option String
  policy : VariantPolicy
  /-- A release config may take values from directories below one of these only. -/
  exclusivePrefixes : List String
  deriving DecidableEq, Repr

/-- The settings that hold unless others are given. -/
def Options.default : Options where
  buildVariant := none
  policy := .bestEffort
  exclusivePrefixes := ["build/release", "vendor/google_shared/build/release"]

/-- A map file that was read. -/
structure LoadedMap where
  /-- The config directory, as it was given. -/
  directory : String
  /-- The path of the file. -/
  path : String
  map : DirectoryMap
  deriving DecidableEq, Repr

/-- All release configs, and what they share. -/
structure Registry where
  /-- The target of each alias. -/
  aliases : NameMap String
  /-- Every declared flag, at its default. -/
  flags : Flags
  configs : NameMap ReleaseConfig
  /-- The map files, in the order in which they were read. -/
  maps : List LoadedMap
  /-- The config directories; the place of each is its index. -/
  directories : List String
  /-- The map and declaration files. -/
  filesUsed : NameSet
  /-- Missing configs are replaced by the fallback. -/
  allowMissing : Bool
  options : Options
  /-- The release configs that were resolved so far. -/
  resolved : NameMap Resolved
  deriving DecidableEq

/-- An action that may change the registry. What it changed before an error stays changed. -/
abbrev Session (α : Type) := ExceptT Error (StateM Registry) α

namespace Registry

/-- The flag that the engine assembles from value sets. -/
def valueSetsFlag : FlagState where
  declaration := {
    name := KnownFlag.aconfigValueSets
    namespaceName := "android_UNKNOWN"
    description := "Aconfig value sets assembled by release-config"
    bugs := []
    value := .unspecified
    workflow := .manual
    containers := ["system", "system_ext", "product", "vendor"] }
  declarationIndex := none
  value := .text ""
  traces := [⟨engineSource, .text ""⟩]
  redacted := false

/-- The registry that only knows the flag assembled by the engine. -/
def empty : Registry where
  aliases := NameMap.empty
  flags := Flags.put NameMap.empty valueSetsFlag
  configs := NameMap.empty
  maps := []
  directories := []
  filesUsed := NameMap.empty
  allowMissing := false
  options := Options.default
  resolved := NameMap.empty

/-- Sets the options and forgets what was resolved under others. -/
def setOptions (registry : Registry) (options : Options) : Registry :=
  { registry with options, resolved := NameMap.empty }

/-! ### Looking up names -/

/-- Follows a name through aliases, in at most the given number of steps. Gives the name where
the chain ends and the names on the way, or the way up to the first name that comes twice. -/
def followAliases (aliases : NameMap String) :
    Nat → String → List String → Except (List String) (String × List String)
  | 0, _, trace => .error trace
  | steps + 1, name, trace =>
    match aliases.get? name with
    | none => .ok (name, trace)
    | some target =>
      if target ∈ trace then .error (trace ++ [target])
      else followAliases aliases steps target (trace ++ [target])

/-- Where a name leads, and the names on the way. -/
def aliasChain (aliases : NameMap String) (name : String) :
    Except (List String) (String × List String) :=
  followAliases aliases (aliases.size + 1) name [name]

/-- The release config of a name or alias; where missing configs are allowed, the fallback
stands in for a missing one, if it exists. -/
def lookup (registry : Registry) (name : String) (allowMissing : Bool) :
    Except Error ReleaseConfig :=
  match aliasChain registry.aliases name with
  | .error trace => .error (.aliasLoop name trace)
  | .ok (last, trace) =>
    match registry.configs.get? last with
    | some config => .ok config
    | none =>
      match if allowMissing then registry.configs.get? fallbackName else none with
      | some config => .ok config
      | none => .error (.configNotFound last trace)

/-- The release config of a name or alias, or the fallback where missing ones are allowed. -/
def config (registry : Registry) (name : String) : Except Error ReleaseConfig :=
  registry.lookup name registry.allowMissing

/-- The release config of a name or alias, never the fallback. -/
def configStrict (registry : Registry) (name : String) : Except Error ReleaseConfig :=
  registry.lookup name false

/-- The names of all release configs and aliases, increasing. -/
def allNames (registry : Registry) : List String :=
  (NameSet.ofNames (registry.configs.names ++ registry.aliases.names)).names

/-- The names and aliases of the configs that may be the target of a build, sorted. -/
def listableNames (registry : Registry) : List String :=
  let listable := registry.configs.values.filter ReleaseConfig.isListable
  (listable.flatMap fun config => config.name :: config.otherNames).mergeSort (· ≤ ·)

/-! ### Linking aliases -/

/-- The name of the config that an alias leads to. An alias may not hide a config, and its
target must exist. -/
def aliasOwner (registry : Registry) (name target : String) : Except Error String := do
  if registry.configs.contains name then throw (.aliasShadowsConfig name)
  if !registry.configs.contains target && !registry.aliases.contains target then
    throw (.danglingAlias name target)
  return (← registry.configStrict name).name

/-- Checks all aliases, by name, and records them with the configs that they lead to. -/
def linkAliases (registry : Registry) : Except Error Registry := do
  let owners ← registry.aliases.entries.mapM fun (name, target) => do
    return (name, ← registry.aliasOwner name target)
  let link (_ : String) (config : ReleaseConfig) : ReleaseConfig :=
    { config with
      otherNames := (owners.filter fun owner => owner.2 = config.name).map Prod.fst }
  return { registry with configs := registry.configs.mapEntries link }

/-! ### Resolved configs -/

/-- The resolution of a name or alias, if it was resolved. -/
def resolved? (registry : Registry) (name : String) : Option Resolved :=
  match registry.configStrict name with
  | .ok config => registry.resolved.get? config.name
  | .error _ => none

/-- The resolution of a name or alias. -/
def resolvedStrict (registry : Registry) (name : String) : Except Error Resolved := do
  let config ← registry.configStrict name
  match registry.resolved.get? config.name with
  | some resolved => return resolved
  | none => throw (.notResolved config.name)

end Registry

end ReleaseFlags
