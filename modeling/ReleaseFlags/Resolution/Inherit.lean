import ReleaseFlags.Registry.Basic

/-!
Merging the flags of an inherited config.

An inherited flag that was changed since its declaration brings its value and
the traces of the changes; value sets add up instead. A redacted flag hides the
flag of the inheriting config too.
-/

namespace ReleaseFlags

/-- The state of a release config while it is resolved. -/
structure Working where
  flags : Flags
  filesUsed : NameSet

/-- Merges the state of a flag in an inherited config into its state here. -/
def FlagState.inherit (flag inherited : FlagState) : FlagState :=
  let flag := if inherited.redacted then flag.redact else flag
  if inherited.name = KnownFlag.aconfigValueSets then
    let sets := inherited.value.textContent
    if sets = "" then flag
    else { flag with
      traces := flag.traces ++ inherited.traces
      value := .text (flag.value.textContent ++ " " ++ sets) }
  else if inherited.isOverridden then
    { flag with
      traces := flag.traces ++ inherited.traces.tail
      value := inherited.value }
  else flag

namespace Working

/-- Merges one inherited flag into the flags. -/
def inheritFlag (parent : String) (flags : Flags) (inherited : FlagState) : Except Error Flags :=
  match flags.get? inherited.name with
  | none => .error (.missingInheritedFlag inherited.name parent)
  | some flag => .ok (flags.insert inherited.name (flag.inherit inherited))

/-- Merges a resolved config into the state of a config that inherits it. -/
def inherit (working : Working) (config parent : ReleaseConfig) (resolved : Resolved) :
    Except Error Working := do
  if config.kind ≠ parent.kind ∧ config.kind.restrictsInheritance then
    throw (.inheritanceKindMismatch config.name config.kind parent.name parent.kind)
  let flags ← resolved.flags.values.foldlM (inheritFlag parent.name) working.flags
  return ⟨flags, working.filesUsed.union resolved.filesUsed⟩

end Working

end ReleaseFlags
