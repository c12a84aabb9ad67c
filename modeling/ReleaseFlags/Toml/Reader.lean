import ReleaseFlags.Toml.Lexical
import ReleaseFlags.Toml.Table

/-!
Reading TOML.

A document is a sequence of lines, each a comment, a header or an entry. Headers
choose the table that the entries after them belong to.
-/

namespace ReleaseFlags

namespace Toml

/-- The items of an array up to its closing bracket. Each step takes one item. -/
def readItems (readItem : List Char → Option (Data × List Char)) :
    Nat → List Char → Option (List Data × List Char)
  | 0, _ => none
  | steps + 1, s =>
    match skipGap s with
    | ']' :: rest => some ([], rest)
    | s => do
      let (item, rest) ← readItem s
      match skipGap rest with
      | ',' :: rest =>
        let (items, rest) ← readItems readItem steps rest
        return (item :: items, rest)
      | ']' :: rest => return ([item], rest)
      | _ => none

/-- The entries of an inline table up to its closing brace, at least one, added to the
entries before them. Each step takes one entry. -/
def readInline (readItem : List Char → Option (Data × List Char)) :
    Nat → Entries → List Char → Option (Entries × List Char)
  | 0, _, _ => none
  | steps + 1, entries, s => do
    let ((path, name), rest) ← readKey s
    let rest ← expect '=' rest
    let (value, rest) ← readItem (skipBlanks rest)
    let entries ← addValue name value path entries
    match skipBlanks rest with
    | ',' :: rest => readInline readItem steps entries rest
    | '\x7d' :: rest => return (entries, rest)
    | _ => none

/-- A value whose arrays and inline tables nest at most the given number of levels deep. -/
def readValue : Nat → List Char → Option (Data × List Char)
  | depth, s =>
    match s with
    | '[' :: rest =>
      match depth with
      | 0 => none
      | depth + 1 => do
        let (items, rest) ← readItems (readValue depth) (rest.length + 1) rest
        return (.list items, rest)
    | '\x7b' :: rest =>
      match depth with
      | 0 => none
      | depth + 1 =>
        match skipBlanks rest with
        | '\x7d' :: rest => some (.record [], rest)
        | rest => do
          let (entries, rest) ← readInline (readValue depth) (rest.length + 1) [] rest
          return (.record (entriesData entries), rest)
    | 't' :: 'r' :: 'u' :: 'e' :: rest => some (.bool true, rest)
    | 'f' :: 'a' :: 'l' :: 's' :: 'e' :: rest => some (.bool false, rest)
    | '"' :: _ | '\'' :: _ => do
      let (content, rest) ← readString s
      return (.text (some (.ofList content)), rest)
    | _ => readNumber s

/-- A document that is partly read. -/
structure Draft where
  /-- The entries of the outermost table. -/
  entries : Entries
  /-- The path of the table that entries belong to now. -/
  current : List String

namespace Draft

/-- Reads the header of a table, after its opening bracket. -/
def readHeader (draft : Draft) (s : List Char) : Option (Draft × List Char) := do
  let ((path, name), rest) ← readKey s
  let rest ← endLine? (← expect ']' rest)
  let entries ← updateTable (defineTable name) path draft.entries
  return (⟨entries, path ++ [name]⟩, rest)

/-- Reads the header of a table in an array, after its opening brackets. -/
def readArrayHeader (draft : Draft) (s : List Char) : Option (Draft × List Char) := do
  let ((path, name), rest) ← readKey s
  let rest ← endLine? (← expect ']' (← expect ']' rest))
  let entries ← updateTable (appendTable name) path draft.entries
  return (⟨entries, path ++ [name]⟩, rest)

/-- Reads an entry of the current table. -/
def readEntry (draft : Draft) (s : List Char) : Option (Draft × List Char) := do
  let ((path, name), rest) ← readKey s
  let rest ← expect '=' rest
  let (value, rest) ← readValue (nestingLimit - 1) (skipBlanks rest)
  let rest ← endLine? rest
  let entries ← updateTable (addValue name value path) draft.current draft.entries
  return ({ draft with entries }, rest)

/-- Reads the lines that are left. Each step takes one line. -/
def readLines : Nat → Draft → List Char → Option Draft
  | 0, _, _ => none
  | steps + 1, draft, s =>
    match skipBlanks s with
    | [] => some draft
    | '[' :: '[' :: rest => do
      let (draft, rest) ← draft.readArrayHeader rest
      readLines steps draft rest
    | '[' :: rest => do
      let (draft, rest) ← draft.readHeader rest
      readLines steps draft rest
    | s =>
      if s.head? = some '#' ∨ s.head? = some '\n' ∨ s.head? = some '\r' then do
        let rest ← endLine? s
        readLines steps draft rest
      else do
        let (draft, rest) ← draft.readEntry s
        readLines steps draft rest

end Draft

/-- Drops a byte order mark at the front. -/
def dropMark : List Char → List Char
  | c :: rest => if c.toNat = 0xFEFF then rest else c :: rest
  | [] => []

/-- The data of a TOML document, if the text is one: always a record. -/
def read (document : String) : Option Data := do
  let s := dropMark document.toList
  let draft ← Draft.readLines (s.length + 1) ⟨[], []⟩ s
  return .record (entriesData draft.entries)

end Toml

end ReleaseFlags
