import ReleaseFlags.Resolution.Basic

/-!
The makefile fragment of a resolved release config.

All variables are assigned with `:=$=`, so make never expands a value again. The
value sets of extra release configs, and their default permissions, are exported
under the flag's name followed by the name of the extra config.
-/

namespace ReleaseFlags

namespace Makefile

/-- The names of the extra release configs that a config exports. -/
def extraNames (resolved : Resolved) : List String :=
  match resolved.flags.get? KnownFlag.extraReleaseConfigs with
  | some flag => Words.ofLine flag.value.marshal
  | none => []

/-- Adds one flag of an extra config to the variables, if it is declared. -/
def exportFlag (extra : String) (resolved : Resolved) (exported : Flags) (name : String) : Flags :=
  match resolved.flags.get? name with
  | some flag => exported.insert (name ++ "_" ++ extra) flag
  | none => exported

/-- The flags behind the variables of the fragment: those of the config, and the exported ones
of each extra config in turn. -/
def exportedFlags (resolved : Resolved) (extras : List (String × Resolved)) : Flags :=
  extras.foldl (fun exported (extra, resolved) =>
    [KnownFlag.aconfigValueSets, KnownFlag.flagDefaultPermission].foldl
      (exportFlag extra resolved) exported) resolved.flags

/-- An assignment that make takes as it is. -/
def assign (name value : String) : String := name ++ " :=$= " ++ value ++ "\n"

/-- What is told about a flag besides its value: the variable's suffix and its value. -/
def metadata (flag : FlagState) : List (String × String) :=
  [("TYPE", flag.value.typeName),
    ("PARTITIONS", " ".intercalate flag.declaration.containers),
    ("DEFAULT", flag.declaration.value.marshal),
    ("VALUE", flag.value.marshal),
    ("DECLARED_IN", flag.declaredIn),
    ("SET_IN", flag.setIn),
    ("NAMESPACE", flag.declaration.namespaceName)]

/-- The metadata variables of all flags. -/
def metadataVariables (exported : Flags) : NameMap String :=
  NameMap.ofList <| exported.entries.flatMap fun (name, flag) =>
    (metadata flag).map fun (suffix, value) =>
      ("_ALL_RELEASE_FLAGS." ++ name ++ "." ++ suffix, value)

/-- The variables in each partition, once for each time that their flag lists it. -/
def partitions (exported : Flags) : NameMap (List String) :=
  exported.entries.foldl (fun partitions (name, flag) =>
    flag.declaration.containers.foldl (fun partitions container =>
      partitions.insert container ((partitions.get? container).getD [] ++ [name])) partitions)
    NameMap.empty

/-- The line that separates the metadata from the values. -/
def valuesHeading : String := "\n\n# Values for all build flags\n"

/-- The text of the fragment for a config, which the user asked for by the name `target`. -/
def text (registry : Registry) (resolved : Resolved) (extras : List (String × Resolved))
    (target : String) : String :=
  let flags := exportedFlags resolved extras
  "# TARGET_RELEASE=" ++ resolved.name ++ "\n" ++
  (if target ≠ resolved.name then "# User specified TARGET_RELEASE=" ++ target ++ "\n" else "") ++
  assign "ALL_RELEASE_CONFIGS_FOR_PRODUCT" (" ".intercalate registry.listableNames) ++
  (if resolved.report.disallowLunchUse then assign "_disallow_lunch_use" "true" else "") ++
  "_used_files := " ++ " ".intercalate resolved.filesUsed.names ++ "\n" ++
  assign "_ALL_RELEASE_FLAGS" (" ".intercalate flags.names) ++
  String.join ((partitions flags).entries.map fun (partition, members) =>
    assign ("_ALL_RELEASE_FLAGS.PARTITIONS." ++ partition) (" ".intercalate members)) ++
  String.join ((metadataVariables flags).entries.map fun (name, value) =>
    assign name value) ++
  valuesHeading ++
  String.join (flags.entries.map fun (name, flag) => assign name flag.value.marshal)

/-- Renders the fragment of a config, resolving it and its extra configs as needed. -/
def render (name target : String) : Session String := do
  let resolved ← Registry.generate name
  let extras ← (extraNames resolved).mapM fun extra => do
    return (extra, ← Registry.generate extra)
  return text (← get) resolved extras target

end Makefile

end ReleaseFlags
