import ReleaseFlags.Data
import ReleaseFlags.Text.Hex

/-!
Printing JSON, one member or item to a line.

Each level of nesting is indented by two blanks; an empty list and an empty
record are written without a line break.
-/

namespace ReleaseFlags

namespace Json

/-- How a character is written in a string literal. -/
def escape (c : Char) : List Char :=
  if c = '"' then ['\\', '"']
  else if c = '\\' then ['\\', '\\']
  else if c = '\x08' then ['\\', 'b']
  else if c = '\x0c' then ['\\', 'f']
  else if c = '\n' then ['\\', 'n']
  else if c = '\r' then ['\\', 'r']
  else if c = '\t' then ['\\', 't']
  else if c.toNat < 32 then '\\' :: 'u' :: Hex.digits 4 c.toNat
  else [c]

/-- The string literal of a text. -/
def quote (content : String) : List Char := '"' :: content.toList.flatMap escape ++ ['"']

/-- The string literal of a text, or of half a surrogate pair where there is no text. -/
def quote? : Option String → List Char
  | some content => quote content
  | none => "\"\\ud800\"".toList

def indent (depth : Nat) : List Char := List.replicate (2 * depth) ' '

mutual

/-- The value, to be placed at the given depth of nesting. -/
def printValue (depth : Nat) : Data → List Char
  | .null => "null".toList
  | .bool true => "true".toList
  | .bool false => "false".toList
  | .number literal => literal.toList
  | .text content => quote? content
  | .list [] => "[]".toList
  | .list (item :: items) =>
    '[' :: '\n' :: printItems (depth + 1) (item :: items) ++ '\n' :: indent depth ++ [']']
  | .record [] => "\x7b\x7d".toList
  | .record (member :: members) =>
    '\x7b' :: '\n' :: printMembers (depth + 1) (member :: members) ++ '\n' :: indent depth ++
      ['\x7d']

/-- The items, one to a line. -/
def printItems (depth : Nat) : List Data → List Char
  | [] => []
  | [item] => indent depth ++ printValue depth item
  | item :: items => indent depth ++ printValue depth item ++ ',' :: '\n' :: printItems depth items

/-- The members, one to a line. -/
def printMembers (depth : Nat) : List (Option String × Data) → List Char
  | [] => []
  | [(name, value)] => indent depth ++ quote? name ++ ':' :: ' ' :: printValue depth value
  | (name, value) :: members =>
    indent depth ++ quote? name ++ ':' :: ' ' :: printValue depth value ++
      ',' :: '\n' :: printMembers depth members

end

/-- The document of the data. -/
def print (data : Data) : String := .ofList (printValue 0 data)

end Json

end ReleaseFlags
