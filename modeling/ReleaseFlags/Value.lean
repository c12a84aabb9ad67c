/-!
The values that a build flag can take, and their form in a makefile.
-/

namespace ReleaseFlags

/-- The value of a build flag. -/
inductive Value where
  /-- No value was given. -/
  | unspecified
  | text (content : String)
  | bool (on : Bool)
  /-- The flag is hidden. -/
  | obsolete
  deriving DecidableEq, Repr, Inhabited

namespace Value

/-- The value as make sees it. A false flag is empty, so that a test for emptiness tells
the two truth values apart. -/
def marshal : Value → String
  | unspecified => ""
  | text content => content
  | bool true => "true"
  | bool false => ""
  | obsolete => " #OBSOLETE"

/-- Reads a rendered value: the truth values in any letter case, and text otherwise.

Only the case of ASCII letters is folded: no other character has a lower-case form that
occurs in the two words. -/
def unmarshal (rendered : String) : Value :=
  let word := rendered.toList.map Char.toLower
  if word = "true".toList then bool true
  else if word = "false".toList then bool false
  else text rendered

/-- The name of the value's type. -/
def typeName : Value → String
  | unspecified => "unspecified"
  | text _ => "string"
  | bool _ => "bool"
  | obsolete => "obsolete"

/-- The content of a text value; other values have none. -/
def textContent : Value → String
  | text content => content
  | _ => ""

end Value

end ReleaseFlags
