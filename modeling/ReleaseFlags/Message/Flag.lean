import ReleaseFlags.Flag.State
import ReleaseFlags.Message.Fields

/-!
The messages about flags: their form in files and how they are read from it.
-/

namespace ReleaseFlags

/-! ### Values -/

/-- The data of a value: a word, or a record with one member named after the type. -/
def Value.data : Value → Data
  | unspecified => .ofText "unspecified_value"
  | text content => .record [(some "string_value", .ofText content)]
  | bool on => .record [(some "bool_value", .bool on)]
  | obsolete => .ofText "obsolete"

def Value.decode (format : Format) : Decoder Value := fun data => do
  let (name, content) ← Decoder.choice data
  if name = "unspecified_value" then
    if Decoder.isNoContent format content then some unspecified else none
  else if name = "string_value" then return text (← Decoder.text (← content))
  else if name = "bool_value" then return bool (← Decoder.bool (← content))
  else if name = "obsolete" then
    if Decoder.isNoContent format content then some obsolete else none
  else none

/-! ### Declarations -/

def Workflow.data (workflow : Workflow) : Data := .ofText workflow.word

def Workflow.decode (format : Format) : Decoder Workflow :=
  Decoder.word format Workflow.all Workflow.word

/-- A member that is left out when its list is empty. -/
def Data.unlessEmpty (name : String) (items : List Data) : List (Option String × Data) :=
  if items.isEmpty then [] else [(some name, .list items)]

/-- A member that is left out when its text is empty. -/
def Data.unlessBlank (name content : String) : List (Option String × Data) :=
  if content = "" then [] else [(some name, .ofText content)]

/-- The data of a declaration. An empty description and an empty list of bugs are left out. -/
def FlagDeclaration.data (declaration : FlagDeclaration) : Data :=
  .record <|
    [(some "name", .ofText declaration.name),
      (some "namespace", .ofText declaration.namespaceName)] ++
    Data.unlessBlank "description" declaration.description ++
    Data.unlessEmpty "bugs" (declaration.bugs.map Data.ofText) ++
    [(some "value", declaration.value.data),
      (some "workflow", declaration.workflow.data),
      (some "containers", .ofTexts declaration.containers)]

def FlagDeclaration.shape : Shape where
  names := ["name", "namespace", "description", "bugs", "value", "workflow", "containers"]
  lenient := false

def FlagDeclaration.decode (format : Format) : Decoder FlagDeclaration := fun data => do
  let fields ← Fields.ofData format shape data
  return {
    name := ← fields.required "name" Decoder.text
    namespaceName := ← fields.required "namespace" Decoder.text
    description := ← fields.optional "description" "" Decoder.text
    bugs := ← fields.optional "bugs" [] Decoder.texts
    value := ← fields.optional "value" .unspecified (Value.decode format)
    workflow := ← fields.optional "workflow" .unspecified (Workflow.decode format)
    containers := ← fields.optional "containers" [] Decoder.texts }

/-! ### Values given by a file -/

/-- The content of a file that gives a flag its value for one release config. -/
structure FlagValueFile where
  name : String
  value : Value
  redacted : Bool
  deriving DecidableEq, Repr, Inhabited

/-- The assignment made by the file at a path. -/
def FlagValueFile.assignment (file : FlagValueFile) (path : String) : Assignment :=
  ⟨path, file.name, file.value, file.redacted⟩

def FlagValueFile.data (file : FlagValueFile) : Data :=
  .record [(some "name", .ofText file.name), (some "value", file.value.data),
    (some "redacted", .bool file.redacted)]

def FlagValueFile.shape : Shape where
  names := ["name", "value", "redacted"]
  lenient := false

def FlagValueFile.decode (format : Format) : Decoder FlagValueFile := fun data => do
  let fields ← Fields.ofData format shape data
  return {
    name := ← fields.required "name" Decoder.text
    value := ← fields.optional "value" .unspecified (Value.decode format)
    redacted := ← fields.optional "redacted" false Decoder.bool }

/-! ### Reports -/

def Tracepoint.data (point : Tracepoint) : Data :=
  .record [(some "source", .ofText point.source), (some "value", point.value.data)]

def Tracepoint.shape : Shape where
  names := ["source", "value"]
  lenient := true

def Tracepoint.decode (format : Format) : Decoder Tracepoint := fun data => do
  let fields ← Fields.ofData format shape data
  return {
    source := ← fields.required "source" Decoder.text
    value := ← fields.required "value" (Value.decode format) }

/-- The data of a report. An empty list of traces is left out. -/
def FlagReport.data (report : FlagReport) : Data :=
  .record <|
    [(some "flag_declaration", report.declaration.data), (some "value", report.value.data)] ++
    Data.unlessEmpty "traces" (report.traces.map Tracepoint.data)

def FlagReport.shape : Shape where
  names := ["flag_declaration", "value", "traces"]
  lenient := true

def FlagReport.decode (format : Format) : Decoder FlagReport := fun data => do
  let fields ← Fields.ofData format shape data
  return {
    declaration := ← fields.required "flag_declaration" (FlagDeclaration.decode format)
    value := ← fields.required "value" (Value.decode format)
    traces := ← fields.optional "traces" [] (Decoder.list (Tracepoint.decode format)) }

/-- The flags of one partition. -/
structure PartitionReport where
  flags : List FlagReport
  deriving DecidableEq, Repr, Inhabited

namespace PartitionReport

/-- Sorts the flags by name. Flags of the same name keep their order. -/
def sortByName (report : PartitionReport) : PartitionReport :=
  ⟨report.flags.mergeSort fun a b => a.declaration.name ≤ b.declaration.name⟩

def data (report : PartitionReport) : Data :=
  .record [(some "flag_artifacts", .list (report.flags.map FlagReport.data))]

def shape : Shape where
  names := ["flag_artifacts"]
  lenient := true

def decode (format : Format) : Decoder PartitionReport := fun data => do
  let fields ← Fields.ofData format shape data
  return ⟨← fields.required "flag_artifacts" (Decoder.list (FlagReport.decode format))⟩

end PartitionReport

end ReleaseFlags
