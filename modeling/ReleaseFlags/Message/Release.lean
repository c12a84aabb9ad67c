import ReleaseFlags.NameMap
import ReleaseFlags.Message.Flag

/-!
The messages about release configs: what the files of a config directory say,
and the reports that are written about resolved release configs.
-/

namespace ReleaseFlags

/-! ### The kinds of release configs -/

/-- The kinds of release configs. -/
inductive ReleaseKind where
  | unspecified
  /-- Usable as the target of a build. Inherits the root config. -/
  | release
  /-- Reached through explicit inheritance only. -/
  | explicitInheritance
  /-- Applied on top of a release config for one build variant. -/
  | buildVariant
  deriving DecidableEq, Repr, Inhabited

namespace ReleaseKind

/-- The word that stands for the kind in files and messages. -/
def word : ReleaseKind → String
  | unspecified => "CONFIG_TYPE_UNSPECIFIED"
  | release => "RELEASE_CONFIG"
  | explicitInheritance => "EXPLICIT_INHERITANCE_CONFIG"
  | buildVariant => "BUILD_VARIANT"

/-- All kinds. -/
def all : List ReleaseKind := [unspecified, release, explicitInheritance, buildVariant]

/-- True if configs of this kind may only inherit configs of the same kind. -/
def restrictsInheritance (kind : ReleaseKind) : Bool := kind = buildVariant

def data (kind : ReleaseKind) : Data := .ofText kind.word

def decode (format : Format) : Decoder ReleaseKind := Decoder.word format all word

end ReleaseKind

/-! ### Files of a config directory -/

/-- Another name for a release config. -/
structure Alias where
  name : String
  target : String
  deriving DecidableEq, Repr, Inhabited

namespace Alias

def data (a : Alias) : Data :=
  .record [(some "name", .ofText a.name), (some "target", .ofText a.target)]

def shape : Shape where
  names := ["name", "target"]
  lenient := false

def decode (format : Format) : Decoder Alias := fun data => do
  let fields ← Fields.ofData format shape data
  return {
    name := ← fields.required "name" Decoder.text
    target := ← fields.required "target" Decoder.text }

end Alias

/-- The file that describes a config directory. -/
structure DirectoryMap where
  description : String
  /-- The containers of declarations that list none. -/
  defaultContainers : List String
  aliases : List Alias
  deriving DecidableEq, Repr, Inhabited

namespace DirectoryMap

/-- The data of a directory map. An empty description and an empty list of aliases are left
out. -/
def data (map : DirectoryMap) : Data :=
  .record <|
    Data.unlessBlank "description" map.description ++
    [(some "default_containers", .ofTexts map.defaultContainers)] ++
    Data.unlessEmpty "aliases" (map.aliases.map Alias.data)

def shape : Shape where
  names := ["description", "default_containers", "aliases"]
  lenient := false

def decode (format : Format) : Decoder DirectoryMap := fun data => do
  let fields ← Fields.ofData format shape data
  return {
    description := ← fields.optional "description" "" Decoder.text
    defaultContainers := ← fields.optional "default_containers" [] Decoder.texts
    aliases := ← fields.optional "aliases" [] (Decoder.list (Alias.decode format)) }

end DirectoryMap

/-- The file with which a config directory contributes to a release config. -/
structure ReleaseFile where
  name : String
  description : String
  /-- The release configs to inherit, in order. -/
  inherits : List String
  aconfigValueSets : List String
  /-- Only value sets may be changed; values of build flags are an error. -/
  aconfigFlagsOnly : Bool
  priorStages : List String
  /-- The config may not be the target of a build. -/
  disallowLunchUse : Bool
  kind : Option ReleaseKind
  deriving DecidableEq, Repr, Inhabited

namespace ReleaseFile

/-- The data of a release file. An absent kind is null. -/
def data (file : ReleaseFile) : Data :=
  .record [(some "name", .ofText file.name),
    (some "description", .ofText file.description),
    (some "inherits", .ofTexts file.inherits),
    (some "aconfig_value_sets", .ofTexts file.aconfigValueSets),
    (some "aconfig_flags_only", .bool file.aconfigFlagsOnly),
    (some "prior_stages", .ofTexts file.priorStages),
    (some "disallow_lunch_use", .bool file.disallowLunchUse),
    (some "release_config_type", (file.kind.map ReleaseKind.data).getD .null)]

def shape : Shape where
  names := ["name", "description", "inherits", "aconfig_value_sets", "aconfig_flags_only",
    "prior_stages", "disallow_lunch_use", "release_config_type"]
  lenient := false

def decode (format : Format) : Decoder ReleaseFile := fun data => do
  let fields ← Fields.ofData format shape data
  return {
    name := ← fields.required "name" Decoder.text
    description := ← fields.optional "description" "" Decoder.text
    inherits := ← fields.optional "inherits" [] Decoder.texts
    aconfigValueSets := ← fields.optional "aconfig_value_sets" [] Decoder.texts
    aconfigFlagsOnly := ← fields.optional "aconfig_flags_only" false Decoder.bool
    priorStages := ← fields.optional "prior_stages" [] Decoder.texts
    disallowLunchUse := ← fields.optional "disallow_lunch_use" false Decoder.bool
    kind := ← fields.optional "release_config_type" none
      (Decoder.nullable (ReleaseKind.decode format)) }

end ReleaseFile

/-! ### Reports -/

/-- The report about one resolved release config. -/
structure ReleaseReport where
  name : String
  otherNames : List String
  /-- The flags, by name. -/
  flags : List FlagReport
  aconfigValueSets : List String
  /-- The inherited configs, in the order in which they were merged. -/
  inherits : List String
  /-- The directories that contributed declarations or values. -/
  directories : List String
  /-- The directories that could contribute values. -/
  valueDirectories : List String
  priorStages : List String
  kind : ReleaseKind
  disallowLunchUse : Bool
  deriving DecidableEq, Repr, Inhabited

namespace ReleaseReport

def data (report : ReleaseReport) : Data :=
  .record [(some "name", .ofText report.name),
    (some "other_names", .ofTexts report.otherNames),
    (some "flag_artifacts", .list (report.flags.map FlagReport.data)),
    (some "aconfig_value_sets", .ofTexts report.aconfigValueSets),
    (some "inherits", .ofTexts report.inherits),
    (some "directories", .ofTexts report.directories),
    (some "value_directories", .ofTexts report.valueDirectories),
    (some "prior_stages", .ofTexts report.priorStages),
    (some "release_config_type", report.kind.data),
    (some "disallow_lunch_use", .bool report.disallowLunchUse)]

def shape : Shape where
  names := ["name", "other_names", "flag_artifacts", "aconfig_value_sets", "inherits",
    "directories", "value_directories", "prior_stages", "release_config_type",
    "disallow_lunch_use"]
  lenient := true

def decode (format : Format) : Decoder ReleaseReport := fun data => do
  let fields ← Fields.ofData format shape data
  return {
    name := ← fields.required "name" Decoder.text
    otherNames := ← fields.optional "other_names" [] Decoder.texts
    flags := ← fields.optional "flag_artifacts" [] (Decoder.list (FlagReport.decode format))
    aconfigValueSets := ← fields.optional "aconfig_value_sets" [] Decoder.texts
    inherits := ← fields.optional "inherits" [] Decoder.texts
    directories := ← fields.optional "directories" [] Decoder.texts
    valueDirectories := ← fields.optional "value_directories" [] Decoder.texts
    priorStages := ← fields.optional "prior_stages" [] Decoder.texts
    kind := ← fields.required "release_config_type" (ReleaseKind.decode format)
    disallowLunchUse := ← fields.optional "disallow_lunch_use" false Decoder.bool }

end ReleaseReport

/-- The report about all release configs, the target first. -/
structure CombinedReport where
  target : ReleaseReport
  others : List ReleaseReport
  /-- The map files, by config directory. -/
  maps : NameMap DirectoryMap
  deriving DecidableEq

namespace CombinedReport

def data (report : CombinedReport) : Data :=
  .record [(some "release_config", report.target.data),
    (some "other_release_configs", .list (report.others.map ReleaseReport.data)),
    (some "release_config_maps_map",
      .record (report.maps.entries.map fun entry => (some entry.1, entry.2.data)))]

def shape : Shape where
  names := ["release_config", "other_release_configs", "release_config_maps_map"]
  lenient := true

/-- Reads map files by directory. Of members with the same name the last one counts. -/
def decodeMaps (format : Format) : Decoder (NameMap DirectoryMap)
  | .record members => do
    let entries ← members.mapM fun (name, value) => do
      return (← name, ← DirectoryMap.decode format value)
    return NameMap.ofList entries
  | _ => none

def decode (format : Format) : Decoder CombinedReport := fun data => do
  let fields ← Fields.ofData format shape data
  return {
    target := ← fields.required "release_config" (ReleaseReport.decode format)
    others := ← fields.optional "other_release_configs" []
      (Decoder.list (ReleaseReport.decode format))
    maps := ← fields.optional "release_config_maps_map" NameMap.empty (decodeMaps format) }

end CombinedReport

/-- The directories that may contribute values to one release config. -/
structure ContributionReport where
  name : String
  directories : List String
  deriving DecidableEq, Repr, Inhabited

namespace ContributionReport

def data (report : ContributionReport) : Data :=
  .record [(some "name", .ofText report.name),
    (some "contributing_directories", .ofTexts report.directories)]

def shape : Shape where
  names := ["name", "contributing_directories"]
  lenient := true

def decode (format : Format) : Decoder ContributionReport := fun data => do
  let fields ← Fields.ofData format shape data
  return {
    name := ← fields.required "name" Decoder.text
    directories := ← fields.required "contributing_directories" Decoder.texts }

end ContributionReport

/-- The contribution reports of all release configs. -/
structure ContributionReports where
  reports : List ContributionReport
  deriving DecidableEq, Repr, Inhabited

namespace ContributionReports

def data (reports : ContributionReports) : Data :=
  .record [(some "release_config_contributions_artifact_list",
    .list (reports.reports.map ContributionReport.data))]

def shape : Shape where
  names := ["release_config_contributions_artifact_list"]
  lenient := true

def decode (format : Format) : Decoder ContributionReports := fun data => do
  let fields ← Fields.ofData format shape data
  return ⟨← fields.required "release_config_contributions_artifact_list"
    (Decoder.list (ContributionReport.decode format))⟩

end ContributionReports

end ReleaseFlags
