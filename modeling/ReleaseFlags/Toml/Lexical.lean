import ReleaseFlags.Data
import ReleaseFlags.Text.Hex

/-!
The tokens of TOML: blanks, comments, keys, strings, numbers and dates.

A reader takes the characters that are left and returns what it read together
with the characters after it.
-/

namespace ReleaseFlags

namespace Toml

/-! ### Blanks and comments -/

def isBlank (c : Char) : Bool := c = ' ' || c = '\t'

def skipBlanks (s : List Char) : List Char := s.dropWhile isBlank

/-- Takes one line end. A carriage return counts only before a line feed. -/
def lineEnd? : List Char → Option (List Char)
  | '\n' :: rest => some rest
  | '\r' :: '\n' :: rest => some rest
  | _ => none

/-- The characters that may stand in a comment or a string as they are, line ends aside. -/
def isPlain (c : Char) : Bool := c = '\t' || (32 ≤ c.toNat && c.toNat ≠ 127)

/-- Skips the rest of a comment. -/
def skipComment (s : List Char) : List Char := s.dropWhile isPlain

/-- Skips blanks and a comment, up to a line end or the end of the text. -/
def skipToLineEnd (s : List Char) : List Char :=
  match skipBlanks s with
  | '#' :: rest => skipComment rest
  | rest => rest

/-- Takes blanks, a comment and the end of the line or of the text. -/
def endLine? (s : List Char) : Option (List Char) :=
  match skipToLineEnd s with
  | [] => some []
  | rest => lineEnd? rest

/-- Skips blanks, comments and line ends between the items of an array, in at most the
given number of lines. -/
def skipLines : Nat → List Char → List Char
  | 0, s => s
  | lines + 1, s =>
    match lineEnd? (skipToLineEnd s) with
    | some rest => skipLines lines rest
    | none => skipBlanks s

/-- Skips all blanks, comments and line ends. -/
def skipGap (s : List Char) : List Char := skipLines s.length s

/-! ### Strings -/

/-- The character with a code point, if there is one. -/
def charOfCode? (code : Nat) : Option Char :=
  if code.isValidChar then some (Char.ofNat code) else none

/-- The character of an escape whose backslash was read. -/
def readEscape : List Char → Option (Char × List Char)
  | '"' :: rest => some ('"', rest)
  | '\\' :: rest => some ('\\', rest)
  | 'b' :: rest => some ('\x08', rest)
  | 'f' :: rest => some ('\x0c', rest)
  | 'n' :: rest => some ('\n', rest)
  | 'r' :: rest => some ('\r', rest)
  | 't' :: rest => some ('\t', rest)
  | 'u' :: rest => do
    let (code, rest) ← Hex.readDigits 4 0 rest
    return (← charOfCode? code, rest)
  | 'U' :: rest => do
    let (code, rest) ← Hex.readDigits 8 0 rest
    return (← charOfCode? code, rest)
  | _ => none

/-- The rest of a string in double quotes on one line. Each step takes one character. -/
def readBasic : Nat → List Char → Option (List Char × List Char)
  | 0, _ => none
  | _ + 1, '"' :: rest => some ([], rest)
  | steps + 1, '\\' :: rest => do
    let (c, rest) ← readEscape rest
    let (content, rest) ← readBasic steps rest
    return (c :: content, rest)
  | steps + 1, c :: rest => do
    if !isPlain c then none
    let (content, rest) ← readBasic steps rest
    return (c :: content, rest)
  | _ + 1, [] => none

/-- The rest of a string in single quotes on one line. -/
def readLiteral : List Char → Option (List Char × List Char)
  | '\'' :: rest => some ([], rest)
  | c :: rest => do
    if !isPlain c then none
    let (content, rest) ← readLiteral rest
    return (c :: content, rest)
  | [] => none

/-- Closes a string of several lines at a run of quotes: three of them close it, and up to
two before those belong to the content. A shorter run is content, a longer one is an error. -/
inductive Closing where
  /-- The run closes the string after this content. -/
  | closes (content rest : List Char)
  | content (content rest : List Char)
  | invalid

def closing (quote : Char) (s : List Char) : Closing :=
  let run := s.takeWhile (· = quote)
  let rest := s.dropWhile (· = quote)
  if run.length < 3 then .content run rest
  else if run.length < 6 then .closes (run.drop 3) rest
  else .invalid

/-- Skips blanks and line ends. -/
def skipBlankLines : List Char → List Char
  | '\r' :: '\n' :: rest => skipBlankLines rest
  | c :: rest => if isBlank c || c = '\n' then skipBlankLines rest else c :: rest
  | [] => []

/-- After a backslash at the end of a line, skips to the next character that is neither a
blank nor a line end. -/
def skipFold (s : List Char) : Option (List Char) := do
  let rest ← lineEnd? (skipBlanks s)
  return skipBlankLines rest

/-- The rest of a string in three double quotes. Each step takes at least one character. -/
def readMultiBasic : Nat → List Char → Option (List Char × List Char)
  | 0, _ => none
  | _ + 1, [] => none
  | steps + 1, '\\' :: rest =>
    match skipFold rest with
    | some rest => readMultiBasic steps rest
    | none => do
      let (c, rest) ← readEscape rest
      let (content, rest) ← readMultiBasic steps rest
      return (c :: content, rest)
  | steps + 1, s@(c :: rest) =>
    if c = '"' then
      match closing '"' s with
      | .closes content rest => some (content, rest)
      | .content quotes rest => do
        let (content, rest) ← readMultiBasic steps rest
        return (quotes ++ content, rest)
      | .invalid => none
    else match lineEnd? s with
      | some rest => do
        let (content, rest) ← readMultiBasic steps rest
        return ('\n' :: content, rest)
      | none => do
        if !isPlain c then none
        let (content, rest) ← readMultiBasic steps rest
        return (c :: content, rest)

/-- The rest of a string in three single quotes. Each step takes at least one character. -/
def readMultiLiteral : Nat → List Char → Option (List Char × List Char)
  | 0, _ => none
  | _ + 1, [] => none
  | steps + 1, s@(c :: rest) =>
    if c = '\'' then
      match closing '\'' s with
      | .closes content rest => some (content, rest)
      | .content quotes rest => do
        let (content, rest) ← readMultiLiteral steps rest
        return (quotes ++ content, rest)
      | .invalid => none
    else match lineEnd? s with
      | some rest => do
        let (content, rest) ← readMultiLiteral steps rest
        return ('\n' :: content, rest)
      | none => do
        if !isPlain c then none
        let (content, rest) ← readMultiLiteral steps rest
        return (c :: content, rest)

/-- Drops one line end, if the text begins with one. -/
def dropLineEnd (s : List Char) : List Char := (lineEnd? s).getD s

/-- A string of any kind. -/
def readString : List Char → Option (List Char × List Char)
  | '"' :: '"' :: '"' :: rest => readMultiBasic (rest.length + 1) (dropLineEnd rest)
  | '\'' :: '\'' :: '\'' :: rest => readMultiLiteral (rest.length + 1) (dropLineEnd rest)
  | '"' :: rest => readBasic (rest.length + 1) rest
  | '\'' :: rest => readLiteral rest
  | _ => none

/-! ### Keys -/

/-- The characters of a bare key. -/
def isBareKey (c : Char) : Bool := c.isAlphanum || c = '-' || c = '_'

/-- One part of a dotted key. -/
def readKeyPart : List Char → Option (String × List Char)
  | '"' :: rest => do
    let (content, rest) ← readBasic (rest.length + 1) rest
    return (.ofList content, rest)
  | '\'' :: rest => do
    let (content, rest) ← readLiteral rest
    return (.ofList content, rest)
  | s =>
    match s.takeWhile isBareKey with
    | [] => none
    | name => some (.ofList name, s.dropWhile isBareKey)

/-- A dotted key has fewer parts than this, and values nest fewer levels deep. -/
def nestingLimit : Nat := 80

/-- A key of at most the given number of parts, with blanks around each. -/
def readKeyParts : Nat → List Char → Option (List String × List Char)
  | 0, _ => none
  | parts + 1, s => do
    let (part, rest) ← readKeyPart (skipBlanks s)
    match skipBlanks rest with
    | '.' :: rest =>
      let (key, rest) ← readKeyParts parts rest
      return (part :: key, rest)
    | rest => return ([part], rest)

/-- A key: the names of the tables that it leads through, and the name of the entry. -/
def readKey (s : List Char) : Option ((List String × String) × List Char) := do
  let (parts, rest) ← readKeyParts (nestingLimit - 1) s
  let name ← parts.getLast?
  return ((parts.dropLast, name), rest)

/-! ### Numbers and dates -/

/-- The number of the leading decimal digits, exactly as many as asked for. -/
def readFixed (count : Nat) (s : List Char) : Option (Nat × List Char) :=
  let digits := s.take count
  if digits.length = count ∧ digits.all Char.isDigit then
    some (digits.foldl (fun n c => n * 10 + (c.toNat - '0'.toNat)) 0, s.drop count)
  else none

/-- Takes the given character. -/
def expect (c : Char) : List Char → Option (List Char)
  | x :: rest => if x = c then some rest else none
  | [] => none

/-- The number of days of a month. -/
def daysInMonth (year month : Nat) : Nat :=
  if month = 2 then
    if year % 4 = 0 ∧ (year % 100 ≠ 0 ∨ year % 400 = 0) then 29 else 28
  else if month = 4 ∨ month = 6 ∨ month = 9 ∨ month = 11 then 30
  else 31

/-- A date of the calendar. -/
def skipDate (s : List Char) : Option (List Char) := do
  let (year, s) ← readFixed 4 s
  let s ← expect '-' s
  let (month, s) ← readFixed 2 s
  let s ← expect '-' s
  let (day, s) ← readFixed 2 s
  if 1 ≤ month ∧ month ≤ 12 ∧ 1 ≤ day ∧ day ≤ daysInMonth year month then some s else none

/-- The fraction of a second, if there is one. -/
def skipSecondFraction (s : List Char) : List Char :=
  match s with
  | '.' :: rest => if rest.takeWhile Char.isDigit = [] then s else rest.dropWhile Char.isDigit
  | _ => s

/-- Hours and minutes. -/
def skipHourMinute (s : List Char) : Option (List Char) := do
  let (hour, s) ← readFixed 2 s
  let s ← expect ':' s
  let (minute, s) ← readFixed 2 s
  if hour < 24 ∧ minute < 60 then some s else none

/-- A time of day; a leap second is allowed. -/
def skipTime (s : List Char) : Option (List Char) := do
  let s ← skipHourMinute s
  let s ← expect ':' s
  let (second, s) ← readFixed 2 s
  if second ≤ 60 then some (skipSecondFraction s) else none

/-- The offset of a time from that of Greenwich, if there is one. -/
def skipOffset (s : List Char) : List Char :=
  match s with
  | 'Z' :: rest => rest
  | 'z' :: rest => rest
  | '+' :: rest => (skipHourMinute rest).getD s
  | '-' :: rest => (skipHourMinute rest).getD s
  | _ => s

/-- A date, a time, or both. -/
def skipDateTime (s : List Char) : Option (List Char) :=
  match skipDate s with
  | some rest =>
    match rest with
    | mark :: time =>
      if mark = 'T' ∨ mark = 't' ∨ mark = ' ' then
        match skipTime time with
        | some rest => some (skipOffset rest)
        | none => some rest
      else some rest
    | [] => some []
  | none => skipTime s

/-- Digits with single underscores between them: the digits and the rest. -/
def readGrouped (isDigit : Char → Bool) : List Char → Option (List Char × List Char)
  | [] => none
  | c :: rest =>
    if isDigit c then
      match rest with
      | '_' :: next =>
        match readGrouped isDigit next with
        | some (digits, rest) => some (c :: digits, rest)
        | none => some ([c], rest)
      | next =>
        match readGrouped isDigit next with
        | some (digits, rest) => some (c :: digits, rest)
        | none => some ([c], next)
    else none

/-- The digits of a decimal number before its point: a leading zero stands alone. -/
def readWhole : List Char → Option (List Char × List Char)
  | '0' :: rest => some (['0'], rest)
  | s => readGrouped Char.isDigit s

/-- The number written by digits in a base. -/
def numberOfDigits (base : Nat) (digits : List Char) : Nat :=
  digits.foldl (fun n c => n * base + (Hex.value? c).getD 0) 0

/-- Takes a sign: whether it is a minus, and the rest. -/
def readSign : List Char → Bool × List Char
  | '-' :: rest => (true, rest)
  | '+' :: rest => (false, rest)
  | s => (false, s)

/-- The smallest number that is too large for a signed integer with 64 bits. -/
def integerBound : Nat := 0x8000000000000000

/-- An integer with 64 bits, in decimal with an optional sign or in base 16, 8 or 2. -/
def skipInteger (s : List Char) : Option (List Char) :=
  let based (base : Nat) (isDigit : Char → Bool) (s : List Char) : Option (List Char) := do
    let (digits, rest) ← readGrouped isDigit s
    if numberOfDigits base digits < integerBound then some rest else none
  match s with
  | '0' :: 'x' :: rest => based 16 Hex.isDigit rest
  | '0' :: 'o' :: rest => based 8 (fun c => '0' ≤ c && c ≤ '7') rest
  | '0' :: 'b' :: rest => based 2 (fun c => c = '0' || c = '1') rest
  | _ => do
    let (negative, rest) := readSign s
    let (digits, rest) ← readWhole rest
    if numberOfDigits 10 digits < integerBound + (if negative then 1 else 0) then some rest else none

/-- Halfway between the largest floating-point number with 64 bits and the next power of two.
From here on numbers are rounded to infinity. -/
def floatBound : Nat := Nat.pow 2 1024 - Nat.pow 2 970

/-- True if digits · 10 ^ exponent is too large for a floating-point number with 64 bits. -/
def overflows (digits : List Char) (exponent : Int) : Bool :=
  let n := numberOfDigits 10 digits
  let magnitude := exponent + (digits.dropWhile (· = '0')).length
  if n = 0 ∨ magnitude < 308 then false
  else if 310 < magnitude then true
  else if 0 ≤ exponent then floatBound ≤ n * Nat.pow 10 exponent.toNat
  else floatBound * Nat.pow 10 (-exponent).toNat ≤ n

/-- The digits after a point, if there is one. -/
def readFraction (s : List Char) : Option (List Char × List Char) :=
  match s with
  | '.' :: rest => readGrouped Char.isDigit rest
  | _ => some ([], s)

/-- An exponent, if there is one. -/
def readExponent (s : List Char) : Option (Option Int × List Char) :=
  match s with
  | mark :: rest =>
    if mark = 'e' ∨ mark = 'E' then do
      let (negative, rest) := readSign rest
      let (digits, rest) ← readGrouped Char.isDigit rest
      let exponent : Int := numberOfDigits 10 digits
      return (some (if negative then -exponent else exponent), rest)
    else some (none, s)
  | [] => some (none, s)

/-- A floating-point number. It needs a fraction or an exponent, or is one of the special
words; a positive one that is too large is an error. -/
def skipFloat (s : List Char) : Option (List Char) :=
  let (negative, unsigned) := readSign s
  match unsigned with
  | 'i' :: 'n' :: 'f' :: rest => some rest
  | 'n' :: 'a' :: 'n' :: rest => some rest
  | _ => do
    let (whole, rest) ← readWhole unsigned
    let (fraction, rest) ← readFraction rest
    let (exponent, rest) ← readExponent rest
    if fraction = [] ∧ exponent = none then none
    if !negative && overflows (whole ++ fraction) (exponent.getD 0 - fraction.length) then none
    some rest

/-- A date, a time or a number, as it is spelt. -/
def readNumber (s : List Char) : Option (Data × List Char) := do
  let rest ← skipDateTime s <|> skipFloat s <|> skipInteger s
  return (.number (.ofList (s.take (s.length - rest.length))), rest)

end Toml

end ReleaseFlags
