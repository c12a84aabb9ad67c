import ReleaseFlags.Data

/-!
Reading typed values out of document data.

The rules are the same for both formats but for a few points, which are told by
the `Format`: a message may be written as the list of its fields in order, where
JSON refuses surplus items and TOML ignores them, and a choice without content
may be written as a one-member record whose member is null in JSON, and an empty
table or array in TOML.
-/

namespace ReleaseFlags

/-- A reader of values of a type from document data. -/
abbrev Decoder (α : Type) := Data → Option α

namespace Decoder

/-- Reads a text. -/
def text : Decoder String
  | .text content => content
  | _ => none

/-- Reads a truth value. -/
def bool : Decoder Bool
  | .bool on => some on
  | _ => none

/-- Reads a list, item by item. -/
def list {α : Type} (decode : Decoder α) : Decoder (List α)
  | .list items => items.mapM decode
  | _ => none

/-- Reads a list of texts. -/
def texts : Decoder (List String) := list text

/-- Reads a value that may be null. -/
def nullable {α : Type} (decode : Decoder α) : Decoder (Option α)
  | .null => some none
  | data => (decode data).map some

end Decoder

/-- The fields that a message of some type may have. -/
structure Shape where
  /-- Their names, in order. -/
  names : List String
  /-- Members with other names are ignored instead of refused. -/
  lenient : Bool

/-- The fields that are present in a message. -/
abbrev Fields := List (String × Data)

namespace Fields

/-- The fields among the members of a record. A name that is no text, a field given twice and,
unless the shape is lenient, a member that is no field are refused. -/
def ofMembers (shape : Shape) : List (Option String × Data) → Option Fields
  | [] => some []
  | (name, value) :: rest => do
    let name ← name
    let fields ← ofMembers shape rest
    if name ∈ shape.names then
      if (fields.lookup name).isSome then none else some ((name, value) :: fields)
    else if shape.lenient then some fields
    else none

/-- The fields of a message: members of a record, or items of a list in order. -/
def ofData (format : Format) (shape : Shape) : Data → Option Fields
  | .record members => ofMembers shape members
  | .list items =>
    if format = .json ∧ shape.names.length < items.length then none
    else some (shape.names.zip items)
  | _ => none

/-- The value of a field that must be present. -/
def required {α : Type} (fields : Fields) (name : String) (decode : Decoder α) : Option α :=
  match fields.lookup name with
  | some data => decode data
  | none => none

/-- The value of a field, or a default if it is absent. -/
def optional {α : Type} (fields : Fields) (name : String) (default : α) (decode : Decoder α) :
    Option α :=
  match fields.lookup name with
  | some data => decode data
  | none => some default

end Fields

namespace Decoder

/-- The name of a choice, and its content if it is written with one. -/
def choice : Decoder (String × Option Data)
  | .text (some name) => some (name, none)
  | .record [(some name, content)] => some (name, some content)
  | _ => none

/-- True for the content of a choice that has none. -/
def isNoContent (format : Format) : Option Data → Bool
  | none => true
  | some content =>
    match format, content with
    | .json, .null => true
    | .toml, .record [] => true
    | .toml, .list [] => true
    | _, _ => false

/-- Reads one of the given values by the word that stands for it. -/
def word {α : Type} (format : Format) (values : List α) (wordOf : α → String) : Decoder α :=
  fun data => do
    let (name, content) ← choice data
    if isNoContent format content then values.find? fun value => wordOf value = name else none

end Decoder

end ReleaseFlags
