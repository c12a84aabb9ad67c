/-!
The data of a document, whichever format it is written in.

JSON and TOML documents are both read into this type, and messages are written
to it before they are printed. Numbers and dates occur in no message, so only
their spelling is kept.
-/

namespace ReleaseFlags

/-- The data of a document. -/
inductive Data where
  | null
  | bool (on : Bool)
  /-- A number or a date, as it is spelt. -/
  | number (literal : String)
  /-- A text. Without content it is a literal whose escapes name no text, such as one half of
  a surrogate pair. -/
  | text (content : Option String)
  | list (items : List Data)
  /-- Named members in the order of the document. A name may occur more than once; a name
  without content is a literal that names no text. -/
  | record (members : List (Option String × Data))
  deriving Inhabited

namespace Data

/-- The data of a text. -/
def ofText (content : String) : Data := text (some content)

/-- The data of a list of texts. -/
def ofTexts (contents : List String) : Data := list (contents.map ofText)

end Data

/-- The formats of files. -/
inductive Format where
  | toml
  | json
  deriving DecidableEq, Repr

/-- The name of the format, as messages show it. -/
def Format.name : Format → String
  | toml => "TOML"
  | json => "JSON"

/-- The format that a file extension stands for, in any letter case.

Only the case of ASCII letters is folded: no other character has a lower-case form that
occurs in the two extensions. -/
def Format.ofExtension? (fileExtension : String) : Option Format :=
  let word := fileExtension.toList.map Char.toLower
  if word = "toml".toList then some toml
  else if word = "json".toList then some json
  else none

end ReleaseFlags
