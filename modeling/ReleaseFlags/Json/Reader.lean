import ReleaseFlags.Data
import ReleaseFlags.Text.Hex

/-!
Reading JSON.

A reader takes the characters that are left and returns what it read together
with the characters after it. Values nest, so the reader of values carries a
bound on the number of its steps; the length of the text gives one that is never
reached.
-/

namespace ReleaseFlags

namespace Json

/-- The characters that may stand between tokens. -/
def isBlank (c : Char) : Bool := c = ' ' || c = '\n' || c = '\t' || c = '\r'

def skipBlanks (s : List Char) : List Char := s.dropWhile isBlank

/-! ### String literals -/

/-- A piece of a string literal. -/
inductive Piece where
  | char (c : Char)
  /-- A UTF-16 code unit given by its number. -/
  | unit (code : Nat)

/-- The character of an escape of two characters. -/
def shortEscape (c : Char) : Option Char :=
  if c = '"' ∨ c = '\\' ∨ c = '/' then some c
  else if c = 'b' then some '\x08'
  else if c = 'f' then some '\x0c'
  else if c = 'n' then some '\n'
  else if c = 'r' then some '\r'
  else if c = 't' then some '\t'
  else none

/-- The pieces up to the closing quote. -/
def readPieces : List Char → Option (List Piece × List Char)
  | [] => none
  | '"' :: rest => some ([], rest)
  | '\\' :: 'u' :: a :: b :: c :: d :: rest => do
    let (code, _) ← Hex.readDigits 4 0 [a, b, c, d]
    let (pieces, rest) ← readPieces rest
    return (.unit code :: pieces, rest)
  | '\\' :: e :: rest => do
    let c ← shortEscape e
    let (pieces, rest) ← readPieces rest
    return (.char c :: pieces, rest)
  | c :: rest => do
    if c = '\\' ∨ c.toNat < 32 then none
    let (pieces, rest) ← readPieces rest
    return (.char c :: pieces, rest)

def isHighSurrogate (code : Nat) : Bool := 0xD800 ≤ code && code < 0xDC00

def isLowSurrogate (code : Nat) : Bool := 0xDC00 ≤ code && code < 0xE000

/-- The text that the pieces stand for, unless half of a surrogate pair is missing. -/
def joinPieces : List Piece → Option (List Char)
  | [] => some []
  | .char c :: rest => do return c :: (← joinPieces rest)
  | .unit code :: rest =>
    if isHighSurrogate code then
      match rest with
      | .unit low :: rest =>
        if isLowSurrogate low then do
          let c := Char.ofNat (0x10000 + (code - 0xD800) * 0x400 + (low - 0xDC00))
          return c :: (← joinPieces rest)
        else none
      | _ => none
    else if isLowSurrogate code then none
    else do return Char.ofNat code :: (← joinPieces rest)

/-- The text of a string literal whose opening quote was read. -/
def readText (s : List Char) : Option (Option String × List Char) := do
  let (pieces, rest) ← readPieces s
  return ((joinPieces pieces).map String.ofList, rest)

/-! ### Numbers -/

/-- The digits at the front, at least one. -/
def readDigits (s : List Char) : Option (List Char × List Char) :=
  match s.takeWhile Char.isDigit with
  | [] => none
  | digits => some (digits, s.dropWhile Char.isDigit)

/-- The digits before the point: a leading zero stands alone. -/
def readWhole : List Char → Option (List Char × List Char)
  | '0' :: rest => some (['0'], rest)
  | s => readDigits s

/-- The point and the digits after it, if there are any. -/
def readFraction (s : List Char) : List Char × List Char :=
  match s with
  | '.' :: rest =>
    match readDigits rest with
    | some (digits, rest) => ('.' :: digits, rest)
    | none => ([], s)
  | _ => ([], s)

/-- The exponent, if there is one. -/
def readExponent (s : List Char) : List Char × List Char :=
  match s with
  | mark :: rest =>
    if mark = 'e' ∨ mark = 'E' then
      let (sign, rest) := match rest with
        | '+' :: rest => (['+'], rest)
        | '-' :: rest => (['-'], rest)
        | rest => ([], rest)
      match readDigits rest with
      | some (digits, rest) => (mark :: sign ++ digits, rest)
      | none => ([], s)
    else ([], s)
  | [] => ([], s)

/-- The number without its sign. -/
def readMagnitude (s : List Char) : Option (List Char × List Char) := do
  let (whole, rest) ← readWhole s
  let (fraction, rest) := readFraction rest
  let (exponent, rest) := readExponent rest
  return (whole ++ fraction ++ exponent, rest)

/-- A number. -/
def readNumber : List Char → Option (Data × List Char)
  | '-' :: rest => do
    let (literal, rest) ← readMagnitude rest
    return (.number (.ofList ('-' :: literal)), rest)
  | s => do
    let (literal, rest) ← readMagnitude s
    return (.number (.ofList literal), rest)

/-! ### Values -/

mutual

/-- A value, after blanks. -/
def readValue : Nat → List Char → Option (Data × List Char)
  | 0, _ => none
  | steps + 1, s =>
    match skipBlanks s with
    | '{' :: rest =>
      match skipBlanks rest with
      | '}' :: rest => some (.record [], rest)
      | rest => do
        let (members, rest) ← readMembers steps rest
        return (.record members, rest)
    | '[' :: rest =>
      match skipBlanks rest with
      | ']' :: rest => some (.list [], rest)
      | rest => do
        let (items, rest) ← readItems steps rest
        return (.list items, rest)
    | '"' :: rest => do
      let (content, rest) ← readText rest
      return (.text content, rest)
    | 't' :: 'r' :: 'u' :: 'e' :: rest => some (.bool true, rest)
    | 'f' :: 'a' :: 'l' :: 's' :: 'e' :: rest => some (.bool false, rest)
    | 'n' :: 'u' :: 'l' :: 'l' :: rest => some (.null, rest)
    | s => readNumber s

/-- The items of a list up to its closing bracket, at least one. -/
def readItems : Nat → List Char → Option (List Data × List Char)
  | 0, _ => none
  | steps + 1, s => do
    let (item, rest) ← readValue steps s
    match skipBlanks rest with
    | ',' :: rest =>
      let (items, rest) ← readItems steps rest
      return (item :: items, rest)
    | ']' :: rest => return ([item], rest)
    | _ => none

/-- The members of a record up to its closing brace, at least one. -/
def readMembers : Nat → List Char → Option (List (Option String × Data) × List Char)
  | 0, _ => none
  | steps + 1, s =>
    match skipBlanks s with
    | '"' :: rest => do
      let (name, rest) ← readText rest
      match skipBlanks rest with
      | ':' :: rest =>
        let (value, rest) ← readValue steps rest
        match skipBlanks rest with
        | ',' :: rest =>
          let (members, rest) ← readMembers steps rest
          return ((name, value) :: members, rest)
        | '}' :: rest => return ([(name, value)], rest)
        | _ => none
      | _ => none
    | _ => none

end

/-- The data of a JSON document, if the text is one. -/
def read (document : String) : Option Data :=
  let s := document.toList
  match readValue (2 * s.length + 2) s with
  | some (data, rest) => if skipBlanks rest = [] then some data else none
  | none => none

end Json

end ReleaseFlags
