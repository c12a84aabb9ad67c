import ReleaseFlags.Resolution.Contribute
import ReleaseFlags.Resolution.Freeze

/-!
Resolving release configs.

Resolving a config walks its inheritance depth first:

* it starts with every flag at its default;
* each parent is resolved and merged, the root config first;
* its own contributions are applied in the order of the directories;
* if a flag asks for it, the build variant config is resolved and merged;
* the result is frozen.

Results are kept, so each config is resolved once. A config that is met again
while it is being resolved inherits itself, which is an error.
-/

namespace ReleaseFlags

/-- The resolved configs, by name. -/
abbrev Cache := NameMap Resolved

/-- A step of the walk. What was resolved before an error stays in the cache. -/
abbrev Walk (α : Type) := ExceptT Error (StateM Cache) α

namespace Registry

/-- The names of the parents of a config, in the order in which they are merged: the root
config for every other release, if it exists, then the configs that the contributions name. -/
def parentNames (registry : Registry) (config : ReleaseConfig) : List String :=
  if config.kind = .release ∧ config.name ≠ rootName ∧
      (registry.configStrict rootName).toOption.isSome then
    distinct (rootName :: config.inheritNames)
  else distinct config.inheritNames

/-- The parent of a config that a name stands for. A config tied to a platform build may not
inherit an alias. -/
def parentOf (registry : Registry) (config : ReleaseConfig) (name : String) :
    Except Error ReleaseConfig :=
  if isBuildPrefix config.name && registry.aliases.contains name then
    .error (.inheritFromAlias config.name name)
  else registry.config name

/-- The build variant config that a config inherits on request. There is none if no variant is
chosen or the config is the variant itself. If the variant is missing or of another kind,
there is none either, unless it is required. -/
def variantOf (registry : Registry) (config : ReleaseConfig) :
    Except Error (Option ReleaseConfig) :=
  match registry.options.buildVariant with
  | none => .ok none
  | some variant =>
    if variant = "" ∨ variant = config.name then .ok none
    else
      let unavailable (reason : String) : Except Error (Option ReleaseConfig) :=
        match registry.options.policy with
        | .bestEffort => .ok none
        | .required => .error (.buildVariantUnavailable config.name variant reason)
      match registry.configStrict variant with
      | .error e => unavailable e.message
      | .ok found =>
        if found.kind = .buildVariant then .ok (some found)
        else unavailable (found.name ++ " has type " ++ found.kind.word)

/-- True if a config asks for the build variant config: it is a release, and the flag for it
is declared and not empty. -/
def usesVariant (config : ReleaseConfig) (flags : Flags) : Bool :=
  config.kind = .release &&
    match flags.get? KnownFlag.useVariantFlags with
    | some flag => flag.value.marshal ≠ ""
    | none => false

/-- The build variant config that a config with these flags inherits, if it asks for one. -/
def variantFor (registry : Registry) (config : ReleaseConfig) (flags : Flags) :
    Except Error (Option ReleaseConfig) :=
  if usesVariant config flags then registry.variantOf config else .ok none

/-- Applies what a config says itself, once its parents are merged. A config without parents
still depends on every declaration. -/
def applyOwn (registry : Registry) (config : ReleaseConfig) (working : Working) :
    Except Error Working := do
  let flags ← config.setPlatformVersion working.flags
  let flags ← config.contributions.foldlM (Contribution.apply registry config) flags
  return {
    flags
    filesUsed :=
      if (registry.parentNames config).isEmpty then working.filesUsed.union registry.filesUsed
      else working.filesUsed }

section Compile

variable {m : Type → Type} [Monad m] [MonadLiftT (Except Error) m]

/-- Resolves and merges one parent, given how to resolve a config. -/
def inheritParent (registry : Registry) (resolve : ReleaseConfig → m Resolved)
    (config : ReleaseConfig) (working : Working) (name : String) : m Working := do
  let parent ← liftM (registry.parentOf config name)
  let resolved ← resolve parent
  liftM (working.inherit config parent resolved)

/-- Resolves and merges the build variant config, if the config asks for it. -/
def inheritVariant (registry : Registry) (resolve : ReleaseConfig → m Resolved)
    (config : ReleaseConfig) (working : Working) : m Working := do
  match ← liftM (registry.variantFor config working.flags) with
  | none => return working
  | some variant =>
    let resolved ← resolve variant
    liftM (working.inherit config variant resolved)

/-- Resolves a config, given how to resolve the configs that it inherits. -/
def compile (registry : Registry) (resolve : ReleaseConfig → m Resolved)
    (config : ReleaseConfig) : m Resolved := do
  let parents := registry.parentNames config
  let working ← parents.foldlM (registry.inheritParent resolve config)
    ⟨registry.flags, config.filesUsed⟩
  let working ← liftM (registry.applyOwn config working)
  let working ← registry.inheritVariant resolve config working
  liftM (working.freeze registry config parents)

end Compile

/-- Resolves a config or takes it from the cache, at most the given number of configs deep.
`active` holds the names of the configs that are being resolved. -/
def resolve (registry : Registry) : Nat → List String → ReleaseConfig → Walk Resolved
  | depth, active, config => do
    match (← get).get? config.name with
    | some resolved => return resolved
    | none =>
      if config.name ∈ active then throw (.inheritanceLoop config.name)
      match depth with
      | 0 => throw (.inheritanceLoop config.name)
      | depth + 1 =>
        let resolved ← registry.compile (resolve registry depth (config.name :: active)) config
        modify fun cache => cache.insert config.name resolved
        return resolved

/-- Resolves a config in the given cache. The configs that are being resolved at one time are
different ones, so the number of all configs bounds the depth. -/
def resolveIn (registry : Registry) (config : ReleaseConfig) : Walk Resolved :=
  registry.resolve registry.configs.size [] config

/-- Resolves the config of a name or alias, or takes it from what was resolved before. -/
def generate (name : String) : Session Resolved := do
  let registry ← get
  let config ← liftExcept (registry.configStrict name)
  let (result, cache) := (registry.resolveIn config).run registry.resolved
  set { registry with resolved := cache }
  liftExcept result

/-- Resolves all configs and reports on them, the one of the given name or alias first. -/
def generateAll (target : String) : Session CombinedReport := do
  let names := (← get).configs.names
  names.forM fun name => do
    let _ ← generate name
  let registry ← get
  let target := (← liftExcept (registry.config target)).name
  let first ← liftExcept (registry.resolvedStrict target)
  let others ← liftExcept ((names.filter (· ≠ target)).mapM registry.resolvedStrict)
  return {
    target := first.report
    others := others.map Resolved.report
    maps := NameMap.ofList (registry.maps.map fun loaded => (loaded.directory, loaded.map)) }

end Registry

end ReleaseFlags
