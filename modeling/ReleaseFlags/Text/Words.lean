/-!
Lists of words written in one line of text.

A word is a non-empty run of characters other than the space; no other
character separates words. Lists of value sets are kept as such lines, and the
entries that count are the distinct words in the order of their first occurrence.
-/

namespace ReleaseFlags

/-- The elements of a list without repetitions, in the order of their first occurrence. -/
def distinct {α : Type} [DecidableEq α] : List α → List α
  | [] => []
  | a :: rest => a :: (distinct rest).filter (· ≠ a)

/-- The pieces of a text between separators, empty ones included. -/
def pieces (separator : Char) : List Char → List (List Char)
  | [] => [[]]
  | c :: rest =>
    if c = separator then [] :: pieces separator rest
    else match pieces separator rest with
      | [] => [[c]]
      | piece :: more => (c :: piece) :: more

namespace Words

/-- The words of a line, in order. -/
def ofLine (line : String) : List String :=
  ((pieces ' ' line.toList).filter (· ≠ [])).map String.ofList

/-- The line that holds the given words, one space between two of them. -/
def toLine (words : List String) : String := " ".intercalate words

end Words

/-- The entries of a line of value sets: its distinct words, by first occurrence. -/
def valueSetsOfLine (line : String) : List String := distinct (Words.ofLine line)

end ReleaseFlags
