import ReleaseFlags.Registry.Basic

/-!
Applying the contributions of a release config to its flags.

Contributions are applied in the order of their directories. A value may not be
given in a directory to the left of the one that declares the flag, the root
config may only set flags that are maintained by hand, and a config for value
sets only may set no flag but one.
-/

namespace ReleaseFlags

/-- True for the name of a release config that is tied to a platform build, such as `ap3a`:
two lower-case letters, a digit, and a digit or lower-case letter. -/
def isBuildPrefix (name : String) : Bool :=
  match name.toList with
  | [a, b, c, d] => a.isLower && b.isLower && c.isDigit && (d.isDigit || d.isLower)
  | _ => false

/-- The platform version of a config that is tied to a platform build: its name in upper case. -/
def platformVersion (name : String) : String := .ofList (name.toList.map Char.toUpper)

namespace ReleaseConfig

/-- Sets the platform version of a config that is tied to a platform build, unless the flag
is not declared or has the right value already. -/
def setPlatformVersion (config : ReleaseConfig) (flags : Flags) : Except Error Flags :=
  if !isBuildPrefix config.name then .ok flags
  else match flags.get? KnownFlag.platformVersion with
    | none => .ok flags
    | some flag =>
      let version := platformVersion config.name
      if flag.value.marshal = version then .ok flags
      else do
        let source := (config.contributions.head?.map Contribution.path).getD engineSource
        let flag ← (flag.assign
          (.plain source KnownFlag.platformVersion (Value.unmarshal version))).mapError .flag
        return flags.insert KnownFlag.platformVersion flag

end ReleaseConfig

namespace Contribution

/-- Appends the value sets of the contribution to those collected so far. -/
def addValueSets (c : Contribution) (flags : Flags) : Flags :=
  let sets := " ".intercalate c.file.aconfigValueSets
  flags.modify KnownFlag.aconfigValueSets fun flag =>
    { flag with
      value := .text (flag.value.textContent ++ " " ++ sets)
      traces := flag.traces ++ [⟨c.path, .text sets⟩] }

/-- Refuses a value where only value sets may be changed. -/
def checkFlagsOnly (config : ReleaseConfig) (c : Contribution) : Except Error Unit :=
  match c.values.find? fun value => value.name ≠ KnownFlag.extraReleaseConfigs with
  | some value =>
    if config.aconfigFlagsOnly then .error (.aconfigFlagsOnly config.name value.name value.path)
    else .ok ()
  | none => .ok ()

/-- Refuses a value for a flag that the contribution may not set. -/
def checkMaySet (registry : Registry) (config : ReleaseConfig) (c : Contribution)
    (flag : FlagState) (value : Assignment) : Except Error Unit := do
  match flag.declarationIndex with
  | some declaredAt =>
    if c.index < declaredAt then
      throw (.setBeforeDeclare value.name (registry.directories[declaredAt]?.getD "") value.path)
  | none => pure ()
  if config.name = rootName ∧ flag.declaration.workflow ≠ .manual then
    throw (.nonManualInRoot value.name value.path)

/-- Applies one value of a contribution. -/
def applyValue (registry : Registry) (config : ReleaseConfig) (c : Contribution)
    (flags : Flags) (value : Assignment) : Except Error Flags :=
  match flags.get? value.name with
  | none => .error (.undefinedFlag value.name value.path)
  | some flag => do
    checkMaySet registry config c flag value
    let flag ← (flag.assign value).mapError .flag
    return flags.insert value.name flag

/-- Applies a contribution: its value sets, then its values in order. -/
def apply (registry : Registry) (config : ReleaseConfig) (flags : Flags) (c : Contribution) :
    Except Error Flags := do
  checkFlagsOnly config c
  c.values.foldlM (applyValue registry config c) (c.addValueSets flags)

end Contribution

end ReleaseFlags
