import ReleaseFlags.Data
import ReleaseFlags.Text.Hex

/-!
Printing TOML.

Plain values come first, one to a line; then each record as a table with a
header and each list of records as an array of tables. A list of more than one
item is written with one item to a line. Members without a value (null) are left
out, since TOML has no word for them.
-/

namespace ReleaseFlags

namespace Toml

/-! ### Strings and keys -/

/-- The ways of writing a string. -/
inductive Style where
  /-- In double quotes, with escapes. -/
  | basic
  /-- In single quotes, as it is. -/
  | literal
  /-- In three double quotes, with escapes. -/
  | multiBasic
  /-- In three single quotes, as it is. -/
  | multiLiteral
  deriving DecidableEq, Repr

/-- The length of the longest run of a character. -/
def longestRun (c : Char) (s : List Char) : Nat :=
  let step (runs : Nat × Nat) (x : Char) : Nat × Nat :=
    if x = c then (runs.1 + 1, max runs.2 (runs.1 + 1)) else (0, runs.2)
  (s.foldl step (0, 0)).2

/-- A character that only an escape can stand for. Tabs and line feeds can be written. -/
def needsEscape (c : Char) : Bool :=
  (c.toNat < 32 && c ≠ '\t' && c ≠ '\n') || c.toNat = 127

/-- The style in which a string is written: the first of the four that needs no escape other
than for tabs; if none does, double quotes, three of them if there are several lines. -/
def styleOf (s : List Char) : Style :=
  let control := s.any needsEscape
  let lines := s.contains '\n'
  let slashes := s.contains '\\'
  let singles := longestRun '\'' s
  let doubles := longestRun '"' s
  if !control && !slashes && doubles = 0 && !lines then .basic
  else if !control && singles = 0 && !lines then .literal
  else if !control && !slashes && doubles ≤ 2 then .multiBasic
  else if !control && singles ≤ 2 then .multiLiteral
  else if lines then .multiBasic
  else .basic

/-- How a character other than a double quote is written between double quotes. -/
def escape (lines : Bool) (c : Char) : List Char :=
  if c = '\x08' then ['\\', 'b']
  else if c = '\t' then ['\\', 't']
  else if c = '\n' then if lines then ['\n'] else ['\\', 'n']
  else if c = '\x0c' then ['\\', 'f']
  else if c = '\r' then ['\\', 'r']
  else if c = '\\' then ['\\', '\\']
  else if needsEscape c then
    '\\' :: 'u' :: (Hex.digits 4 c.toNat).map Char.toUpper
  else [c]

/-- The content between double quotes. Between three of them, up to two double quotes in a
row stand as they are, counting those already written; otherwise each is escaped. -/
def escapeAll (lines : Bool) : Nat → List Char → List Char
  | _, [] => []
  | run, c :: rest =>
    if c = '"' then
      if run < (if lines then 2 else 0) then '"' :: escapeAll lines (run + 1) rest
      else '\\' :: '"' :: escapeAll lines 0 rest
    else escape lines c ++ escapeAll lines 0 rest

/-- A string in a style. A line end after the opening quotes is no part of the string; one is
written if there are several lines. -/
def quoteAs (style : Style) (s : List Char) : List Char :=
  let opening := if s.contains '\n' then ['\n'] else []
  match style with
  | .basic => '"' :: escapeAll false 0 s ++ ['"']
  | .literal => '\'' :: s ++ ['\'']
  | .multiBasic => "\"\"\"".toList ++ opening ++ escapeAll true 0 s ++ "\"\"\"".toList
  | .multiLiteral => "'''".toList ++ opening ++ s ++ "'''".toList

/-- A string. -/
def quote (content : String) : List Char := quoteAs (styleOf content.toList) content.toList

/-- A key: bare if it can be, and otherwise a string on one line. -/
def quoteKey (name : String) : List Char :=
  let s := name.toList
  let control := s.any fun c => needsEscape c || c = '\n'
  if s ≠ [] ∧ s.all (fun c => c.isAlphanum || c = '-' || c = '_') then s
  else if !control && !s.contains '\\' && !s.contains '"' then quoteAs .basic s
  else if !control && !s.contains '\'' then quoteAs .literal s
  else quoteAs .basic s

/-! ### Values and tables -/

/-- True for data that is written as a table of its own. -/
def isTable : Data → Bool
  | .record _ => true
  | _ => false

/-- True for a list that is written as an array of tables. -/
def isTables : Data → Bool
  | .list (item :: items) => isTable item && items.all isTable
  | _ => false

mutual

/-- A value on the right of an equals sign or in an array. -/
def printValue : Data → List Char
  | .null => []
  | .bool true => "true".toList
  | .bool false => "false".toList
  | .number literal => literal.toList
  | .text content => quote (content.getD "")
  | .list [] => "[]".toList
  | .list [item] => '[' :: printValue item ++ [']']
  | .list (item :: items) => '[' :: printItems (item :: items) ++ "\n]".toList
  | .record [] => "\x7b\x7d".toList
  | .record (member :: members) =>
    '\x7b' :: ' ' :: printMembers (member :: members) ++ [' ', '\x7d']

/-- The items of an array, one to a line. -/
def printItems : List Data → List Char
  | [] => []
  | item :: items => "\n    ".toList ++ printValue item ++ ',' :: printItems items

/-- The entries of an inline table. -/
def printMembers : List (Option String × Data) → List Char
  | [] => []
  | [(name, value)] => quoteKey (name.getD "") ++ " = ".toList ++ printValue value
  | (name, value) :: members =>
    quoteKey (name.getD "") ++ " = ".toList ++ printValue value ++ ", ".toList ++
      printMembers members

end

/-- The line of an entry, unless it is null or a table of its own. -/
def printEntry (member : Option String × Data) : List Char :=
  match member.2 with
  | .null => []
  | value =>
    if isTable value || isTables value then []
    else quoteKey (member.1.getD "") ++ " = ".toList ++ printValue value ++ ['\n']

/-- The keys of a path, with points between them. -/
def printPath (path : List String) : List Char := ['.'].intercalate (path.map quoteKey)

/-- The header of a table. -/
def printHeader (path : List String) : List Char := '[' :: printPath path ++ "]\n".toList

/-- The header of a table in an array. -/
def printArrayHeader (path : List String) : List Char :=
  "[[".toList ++ printPath path ++ "]]\n".toList

mutual

/-- The sections of a table: its header and entries, then the sections of the tables below
it. A table without entries of its own needs no header if there are tables below it. -/
def tableSections (path : List String) : Data → List (List Char)
  | .record members =>
    let body := members.flatMap printEntry
    let below := memberSections path members
    if body = [] && !below.isEmpty then below
    else (printHeader path ++ body) :: below
  | _ => []

/-- The sections of the tables of an array. -/
def arraySections (path : List String) : List Data → List (List Char)
  | [] => []
  | .record members :: items =>
    (printArrayHeader path ++ members.flatMap printEntry) :: memberSections path members ++
      arraySections path items
  | _ :: items => arraySections path items

/-- The sections of the members that are tables or arrays of tables. -/
def memberSections (path : List String) : List (Option String × Data) → List (List Char)
  | [] => []
  | (name, .record members) :: rest =>
    tableSections (path ++ [name.getD ""]) (.record members) ++ memberSections path rest
  | (name, .list items) :: rest =>
    (if isTables (.list items) then arraySections (path ++ [name.getD ""]) items else []) ++
      memberSections path rest
  | _ :: rest => memberSections path rest

end

/-- The document of a record: its entries and sections, with an empty line before each
section that is not the first thing in the document. -/
def print (data : Data) : String :=
  match data with
  | .record members =>
    let body := members.flatMap printEntry
    let sections := memberSections [] members
    .ofList (['\n'].intercalate (if body = [] then sections else body :: sections))
  | _ => ""

end Toml

end ReleaseFlags
