import Mathlib.Algebra.Group.Nat.Defs
import ReleaseFlags.Json.Printer
import ReleaseFlags.Json.Reader

/-!
# String literals are read back

A printed string literal holds one piece for each character of the text: the character itself, a
short escape, or the four digits of a control character.  Reading the literal gives the text again,
whatever follows it (`readText_quote`).
-/

namespace ReleaseFlags

namespace Hex

lemma value?_digitChar {d : Nat} (h : d < 16) : value? (Nat.digitChar d) = some d := by
  have hall : ∀ d < 16, value? (Nat.digitChar d) = some d := by decide
  exact hall d h

/-- The last of several digits is read after the others. -/
lemma readDigits_succ (count n : Nat) (s : List Char) : readDigits (count + 1) n s =
    (readDigits count n s).bind fun read => readDigits 1 read.1 read.2 := by
  induction count generalizing n s with
  | zero => rfl
  | succ count ih =>
    cases s with
    | nil => rfl
    | cons c rest =>
      rw [readDigits, readDigits]
      cases value? c with
      | none => rfl
      | some d => exact ih (n * 16 + d) rest

/-- The digits of a number are read back, but for those that were cut off. -/
lemma readDigits_digits (count n k : Nat) (rest : List Char) :
    readDigits count n (digits count k ++ rest) =
      some (n * 16 ^ count + k % 16 ^ count, rest) := by
  induction count generalizing k rest with
  | zero => simp [readDigits, digits, Nat.mod_one]
  | succ count ih =>
    have hlast : value? (Nat.digitChar (k % 16)) = some (k % 16) :=
      value?_digitChar (Nat.mod_lt k (by decide))
    have hsplit : k % 16 ^ (count + 1) = k % 16 + 16 * (k / 16 % 16 ^ count) := by
      rw [Nat.pow_succ', Nat.mod_mul]
    have hsum : (n * 16 ^ count + k / 16 % 16 ^ count) * 16 + k % 16 =
        n * 16 ^ (count + 1) + k % 16 ^ (count + 1) := by
      rw [hsplit, Nat.pow_succ, ← Nat.mul_assoc]
      omega
    rw [readDigits_succ, digits, List.append_assoc, List.singleton_append, ih, Option.bind_some]
    simp only [readDigits, hlast, Option.bind_eq_bind, Option.bind_some, hsum]

end Hex

namespace Json

/-- What is read with one more piece in front. -/
def withPiece (piece : Piece) (read : List Piece × List Char) : List Piece × List Char :=
  (piece :: read.1, read.2)

/-- An escape of two characters. -/
lemma readPieces_short {e c : Char} (h : shortEscape e = some c) (s : List Char) :
    readPieces ('\\' :: e :: s) = (readPieces s).map (withPiece (.char c)) := by
  have hne : e ≠ 'u' := by
    rintro rfl
    cases h
  rw [readPieces]
  · simp only [h, Option.bind_eq_bind, Option.bind_some]
    cases readPieces s <;> rfl
  · intro a b c d rest heq _
    exact hne heq

/-- A character that needs no escape. -/
lemma readPieces_plain {c : Char} (hquote : c ≠ '"') (hescape : c ≠ '\\') (hprints : 32 ≤ c.toNat)
    (s : List Char) : readPieces (c :: s) = (readPieces s).map (withPiece (.char c)) := by
  have hread : ¬ (c = '\\' ∨ c.toNat < 32) := by
    rw [not_or]
    exact ⟨hescape, by omega⟩
  rw [readPieces]
  · simp only [if_neg hread]
    cases readPieces s <;> rfl
  all_goals simp_all

/-- A character that is given by its number. -/
lemma readPieces_digits {n : Nat} (h : n < 16 ^ 4) (s : List Char) :
    readPieces ('\\' :: 'u' :: Hex.digits 4 n ++ s) = (readPieces s).map (withPiece (.unit n)) := by
  obtain ⟨a, b, c, d, hdigits⟩ : ∃ a b c d, Hex.digits 4 n = [a, b, c, d] := ⟨_, _, _, _, rfl⟩
  have hread := Hex.readDigits_digits 4 0 n []
  rw [List.append_nil, hdigits, Nat.mod_eq_of_lt h] at hread
  rw [hdigits]
  change readPieces ('\\' :: 'u' :: a :: b :: c :: d :: s) = _
  rw [readPieces, hread]
  simp only [Option.bind_eq_bind, Option.bind_some, Nat.zero_mul, Nat.zero_add]
  cases readPieces s <;> rfl

lemma joinPieces_char (c : Char) (more : List Piece) :
    joinPieces (.char c :: more) = (joinPieces more).map (c :: ·) := by
  rw [joinPieces]
  cases joinPieces more <;> rfl

/-- A code unit below the surrogates stands for the character of its number. -/
lemma joinPieces_unit {c : Char} (h : c.toNat < 0xD800) (more : List Piece) :
    joinPieces (.unit c.toNat :: more) = (joinPieces more).map (c :: ·) := by
  have hhigh : isHighSurrogate c.toNat = false := by
    simp [isHighSurrogate]
    omega
  have hlow : isLowSurrogate c.toNat = false := by
    simp [isLowSurrogate]
    omega
  rw [joinPieces.eq_def]
  simp only [hhigh, hlow, Bool.false_eq_true, if_false, Char.ofNat_toNat]
  cases joinPieces more <;> rfl

/-- A printed character is read as one piece, which stands for the character. -/
lemma exists_piece (c : Char) : ∃ piece,
    (∀ s, readPieces (escape c ++ s) = (readPieces s).map (withPiece piece)) ∧
      ∀ more, joinPieces (piece :: more) = (joinPieces more).map (c :: ·) := by
  have hshort {e : Char} (h : shortEscape e = some c) : ∃ piece,
      (∀ s, readPieces (['\\', e] ++ s) = (readPieces s).map (withPiece piece)) ∧
        ∀ more, joinPieces (piece :: more) = (joinPieces more).map (c :: ·) :=
    ⟨.char c, readPieces_short h, joinPieces_char c⟩
  unfold escape
  -- seven characters have short escapes
  iterate 7
    split
    · next heq =>
      subst heq
      exact hshort rfl
  split
  · next hcontrol =>
    exact ⟨.unit c.toNat, readPieces_digits (by omega), joinPieces_unit (by omega)⟩
  · next hprints =>
    exact ⟨.char c, readPieces_plain (by assumption) (by assumption) (by omega), joinPieces_char c⟩

/-- The pieces of a literal stand for its text. -/
lemma exists_pieces (content rest : List Char) : ∃ pieces,
    readPieces (content.flatMap escape ++ '"' :: rest) = some (pieces, rest) ∧
      joinPieces pieces = some content := by
  induction content with
  | nil => exact ⟨[], by rw [List.flatMap_nil, List.nil_append, readPieces], by rw [joinPieces]⟩
  | cons c content ih =>
    obtain ⟨pieces, hread, hjoin⟩ := ih
    obtain ⟨piece, hfirst, hstands⟩ := exists_piece c
    refine ⟨piece :: pieces, ?_, ?_⟩
    · rw [List.flatMap_cons, List.append_assoc, hfirst, hread]
      rfl
    · rw [hstands, hjoin]
      rfl

/-- A literal is read back behind its opening quote, whatever follows it. -/
lemma readText_quote (content : String) (rest : List Char) : ∃ literal,
    quote content ++ rest = '"' :: literal ∧ readText literal = some (some content, rest) := by
  obtain ⟨pieces, hread, hjoin⟩ := exists_pieces content.toList rest
  refine ⟨content.toList.flatMap escape ++ '"' :: rest, by simp [quote], ?_⟩
  rw [readText, hread]
  simp [hjoin]

/-- A literal that names no text is read as such. -/
lemma readText_quote? (content : Option String) (rest : List Char) : ∃ literal,
    quote? content ++ rest = '"' :: literal ∧ readText literal = some (content, rest) := by
  cases content with
  | some content => exact readText_quote content rest
  | none =>
    have hread : readPieces ('\\' :: 'u' :: Hex.digits 4 0xD800 ++ '"' :: rest) =
        some ([.unit 0xD800], rest) := by
      rw [readPieces_digits (by decide), readPieces]
      rfl
    refine ⟨'\\' :: 'u' :: Hex.digits 4 0xD800 ++ '"' :: rest, rfl, ?_⟩
    rw [readText, hread]
    rfl

end Json

end ReleaseFlags
