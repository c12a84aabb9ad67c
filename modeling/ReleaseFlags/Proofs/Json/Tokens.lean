import Mathlib.Data.List.TakeWhile
import ReleaseFlags.Proofs.Json.Literals

/-!
# The tokens of a document

String literals and numbers as they are written, told without the reader: a literal spells its
pieces one after the other (`Spells`), and a number has a sign, digits, a fraction and an exponent,
in this order (`IsNumber`).  The reader takes a literal up to its closing quote and nothing else
(`readPieces_eq_some_iff`).  A number has no closing character: the reader takes the whole of it if
what follows may stand behind a value (`readNumber_of_isNumber`).
-/

namespace ReleaseFlags

namespace Json

variable {c : Char} {s rest : List Char}

/-! ### String literals -/

/-- The body of a string literal, between its quotes, and the pieces that it spells. -/
inductive Spells : List Char → List Piece → Prop
  | nil : Spells [] []
  | plain {c : Char} {body : List Char} {pieces : List Piece} (hquote : c ≠ '"')
      (hescape : c ≠ '\\') (hprints : 32 ≤ c.toNat) (h : Spells body pieces) :
      Spells (c :: body) (.char c :: pieces)
  | short {e c : Char} {body : List Char} {pieces : List Piece} (he : shortEscape e = some c)
      (h : Spells body pieces) : Spells ('\\' :: e :: body) (.char c :: pieces)
  | unit {a b c d : Char} {p q r t : Nat} {body : List Char} {pieces : List Piece}
      (ha : Hex.value? a = some p) (hb : Hex.value? b = some q) (hc : Hex.value? c = some r)
      (hd : Hex.value? d = some t) (h : Spells body pieces) :
      Spells ('\\' :: 'u' :: a :: b :: c :: d :: body)
        (.unit (((p * 16 + q) * 16 + r) * 16 + t) :: pieces)

/-- Four digits are read as the number that they write. -/
lemma readDigits_four {a b c d : Char} {code : Nat} :
    Hex.readDigits 4 0 [a, b, c, d] = some (code, []) ↔
      ∃ p q r t, Hex.value? a = some p ∧ Hex.value? b = some q ∧ Hex.value? c = some r ∧
        Hex.value? d = some t ∧ ((p * 16 + q) * 16 + r) * 16 + t = code := by
  simp only [Hex.readDigits, Option.bind_eq_bind, Option.bind_eq_some_iff, Option.some.injEq,
    Prod.mk.injEq, Nat.zero_mul, Nat.zero_add, and_true]
  constructor
  · rintro ⟨p, hp, q, hq, r, hr, t, ht, hcode⟩
    exact ⟨p, q, r, t, hp, hq, hr, ht, hcode⟩
  · rintro ⟨p, q, r, t, hp, hq, hr, ht, hcode⟩
    exact ⟨p, hp, q, hq, r, hr, t, ht, hcode⟩

lemma readPieces_of_spells {body : List Char} {pieces : List Piece} (h : Spells body pieces)
    (rest : List Char) : readPieces (body ++ '"' :: rest) = some (pieces, rest) := by
  induction h with
  | nil => rw [List.nil_append, readPieces]
  | plain hquote hescape hprints _ ih =>
    rw [List.cons_append, readPieces_plain hquote hescape hprints, ih]
    rfl
  | short he _ ih =>
    rw [List.cons_append, List.cons_append, readPieces_short he, ih]
    rfl
  | unit ha hb hc hd _ ih =>
    have hdigits := readDigits_four.mpr ⟨_, _, _, _, ha, hb, hc, hd, rfl⟩
    simp only [List.cons_append]
    rw [readPieces, hdigits, Option.bind_eq_bind, Option.bind_some, ih]
    rfl

lemma exists_spells_of_readPieces {pieces : List Piece} (h : readPieces s = some (pieces, rest)) :
    ∃ body, s = body ++ '"' :: rest ∧ Spells body pieces := by
  induction s using readPieces.induct generalizing pieces with
  | case1 => cases h
  | case2 s =>
    rw [readPieces] at h
    cases h
    exact ⟨[], rfl, .nil⟩
  | case3 a b c d s ih =>
    rw [readPieces] at h
    obtain ⟨⟨code, left⟩, hcode, h⟩ := Option.bind_eq_some_iff.mp h
    obtain ⟨⟨more, _⟩, hmore, h⟩ := Option.bind_eq_some_iff.mp h
    cases h
    obtain ⟨body, rfl, hbody⟩ := ih hmore
    have hleft : left = [] := by
      simp only [Hex.readDigits, Option.bind_eq_bind, Option.bind_eq_some_iff] at hcode
      obtain ⟨_, -, _, -, _, -, _, -, hcode⟩ := hcode
      cases hcode
      rfl
    subst hleft
    obtain ⟨p, q, r, t, ha, hb, hc, hd, rfl⟩ := readDigits_four.mp hcode
    exact ⟨_, rfl, .unit ha hb hc hd hbody⟩
  | case4 e s hunit ih =>
    rw [readPieces] at h
    · obtain ⟨c, he, h⟩ := Option.bind_eq_some_iff.mp h
      obtain ⟨⟨more, _⟩, hmore, h⟩ := Option.bind_eq_some_iff.mp h
      cases h
      obtain ⟨body, rfl, hbody⟩ := ih hmore
      exact ⟨_, rfl, .short he hbody⟩
    · exact hunit
  | case5 c s hquote hunit hescape hrefused _ =>
    rw [readPieces] at h
    · simp only [if_pos hrefused] at h
      cases h
    · exact hquote
    · exact hunit
    · exact hescape
  | case6 c s hquote _ _ hkept ih =>
    obtain ⟨hescape, hprints⟩ := not_or.mp hkept
    rw [readPieces_plain hquote hescape (by omega)] at h
    obtain ⟨⟨more, _⟩, hmore, h⟩ := Option.map_eq_some_iff.mp h
    cases h
    obtain ⟨body, rfl, hbody⟩ := ih hmore
    exact ⟨_, rfl, .plain hquote hescape (by omega) hbody⟩

/-- The pieces of a literal are read up to its closing quote. -/
theorem readPieces_eq_some_iff {pieces : List Piece} : readPieces s = some (pieces, rest) ↔
    ∃ body, s = body ++ '"' :: rest ∧ Spells body pieces := by
  constructor
  · exact exists_spells_of_readPieces
  · rintro ⟨body, rfl, hbody⟩
    exact readPieces_of_spells hbody rest

/-! ### Numbers -/

/-- Digits, at least one. -/
def IsDigits (s : List Char) : Prop := s ≠ [] ∧ ∀ c ∈ s, c.isDigit = true

/-- The digits before the point, without a leading zero. -/
def IsWhole (s : List Char) : Prop := s = ['0'] ∨ IsDigits s ∧ s.head? ≠ some '0'

/-- The point and the digits after it, or nothing. -/
def IsFraction (s : List Char) : Prop := s = [] ∨ ∃ digits, s = '.' :: digits ∧ IsDigits digits

/-- The exponent with its mark, or nothing. -/
def IsExponent (s : List Char) : Prop :=
  s = [] ∨ ∃ mark sign digits, s = mark :: (sign ++ digits) ∧ (mark = 'e' ∨ mark = 'E') ∧
    (sign = [] ∨ sign = ['+'] ∨ sign = ['-']) ∧ IsDigits digits

/-- A number without its sign. -/
inductive IsMagnitude : List Char → Prop
  | intro {whole fraction exponent : List Char} (hwhole : IsWhole whole)
      (hfraction : IsFraction fraction) (hexponent : IsExponent exponent) :
      IsMagnitude (whole ++ fraction ++ exponent)

/-- A number. -/
inductive IsNumber : List Char → Prop
  | positive {s : List Char} (h : IsMagnitude s) : IsNumber s
  | negative {s : List Char} (h : IsMagnitude s) : IsNumber ('-' :: s)

/-- The character may stand behind a value. -/
def endsValue (c : Char) : Bool := isBlank c || c = ',' || c = ']' || c = '\x7d'

/-- The text may stand behind a value. -/
def Follows (rest : List Char) : Prop := ∀ c, rest.head? = some c → endsValue c = true

/-- No digit stands at the front. -/
def NoDigit (s : List Char) : Prop := ∀ c, s.head? = some c → c.isDigit = false

lemma noDigit_cons (h : c.isDigit = false) (s : List Char) : NoDigit (c :: s) := by
  rintro _ ⟨⟩
  exact h

/-- A character that may stand behind a value is none of those in a number. -/
lemma notMem_number_of_endsValue (h : endsValue c = true) :
    c.isDigit = false ∧ c ≠ '.' ∧ c ≠ 'e' ∧ c ≠ 'E' := by
  simp only [endsValue, isBlank, Bool.or_eq_true, decide_eq_true_eq] at h
  rcases h with (((((rfl | rfl) | rfl) | rfl) | rfl) | rfl) | rfl <;> decide

lemma Follows.noDigit (h : Follows rest) : NoDigit rest := fun c hc =>
  (notMem_number_of_endsValue (h c hc)).1

lemma readDigits_of_isDigits {digits : List Char} (h : IsDigits digits) (hrest : NoDigit rest) :
    readDigits (digits ++ rest) = some (digits, rest) := by
  obtain ⟨hne, hall⟩ := h
  have htake : rest.takeWhile Char.isDigit = [] := by
    cases rest with
    | nil => rfl
    | cons c rest => exact List.takeWhile_cons_of_neg (by simp [hrest c rfl])
  have hdrop : rest.dropWhile Char.isDigit = rest := by
    cases rest with
    | nil => rfl
    | cons c rest => exact List.dropWhile_cons_of_neg (by simp [hrest c rfl])
  rw [readDigits, List.takeWhile_append_of_pos hall, List.dropWhile_append_of_pos hall, htake,
    hdrop, List.append_nil]
  cases digits with
  | nil => exact (hne rfl).elim
  | cons c digits => rfl

lemma isDigits_of_readDigits {digits : List Char} (h : readDigits s = some (digits, rest)) :
    IsDigits digits ∧ s = digits ++ rest := by
  unfold readDigits at h
  split at h
  · cases h
  · next hne =>
    cases h
    exact ⟨⟨hne, fun c hc => List.mem_takeWhile_imp hc⟩, List.takeWhile_append_dropWhile.symm⟩

lemma readWhole_of_isWhole {whole : List Char} (h : IsWhole whole) (hrest : NoDigit rest) :
    readWhole (whole ++ rest) = some (whole, rest) := by
  rcases h with rfl | ⟨hdigits, hzero⟩
  · rfl
  · rw [← readDigits_of_isDigits hdigits hrest]
    obtain ⟨c, more, rfl⟩ := List.exists_cons_of_ne_nil hdigits.1
    rw [List.cons_append, readWhole]
    rintro _ heq
    cases heq
    exact hzero rfl

lemma isWhole_of_readWhole {whole : List Char} (h : readWhole s = some (whole, rest)) :
    IsWhole whole ∧ s = whole ++ rest := by
  unfold readWhole at h
  split at h
  · cases h
    exact ⟨.inl rfl, rfl⟩
  · next hzero =>
    obtain ⟨hdigits, rfl⟩ := isDigits_of_readDigits h
    refine ⟨.inr ⟨hdigits, fun hhead => ?_⟩, rfl⟩
    obtain ⟨more, rfl⟩ := List.head?_eq_some_iff.mp hhead
    exact hzero _ rfl

lemma readFraction_of_isFraction {fraction : List Char} (h : IsFraction fraction)
    (hrest : NoDigit rest) (hpoint : rest.head? ≠ some '.') :
    readFraction (fraction ++ rest) = (fraction, rest) := by
  rcases h with rfl | ⟨digits, rfl, hdigits⟩
  · cases rest with
    | nil => rfl
    | cons c rest =>
      rw [List.nil_append, readFraction]
      rintro _ heq
      cases heq
      exact hpoint rfl
  · rw [List.cons_append, readFraction, readDigits_of_isDigits hdigits hrest]

lemma isFraction_of_readFraction {fraction : List Char} (h : readFraction s = (fraction, rest)) :
    IsFraction fraction ∧ s = fraction ++ rest := by
  unfold readFraction at h
  split at h
  · split at h
    · next hread =>
      cases h
      obtain ⟨hdigits, rfl⟩ := isDigits_of_readDigits hread
      exact ⟨.inr ⟨_, rfl, hdigits⟩, rfl⟩
    · cases h
      exact ⟨.inl rfl, rfl⟩
  · cases h
    exact ⟨.inl rfl, rfl⟩

/-- The sign at the front, if there is one, and what follows it. -/
def splitSign : List Char → List Char × List Char
  | '+' :: rest => (['+'], rest)
  | '-' :: rest => (['-'], rest)
  | rest => ([], rest)

lemma splitSign_spec (s : List Char) : s = (splitSign s).1 ++ (splitSign s).2 ∧
    ((splitSign s).1 = [] ∨ (splitSign s).1 = ['+'] ∨ (splitSign s).1 = ['-']) := by
  unfold splitSign
  split
  · exact ⟨rfl, .inr (.inl rfl)⟩
  · exact ⟨rfl, .inr (.inr rfl)⟩
  · exact ⟨rfl, .inl rfl⟩

lemma splitSign_append {sign digits : List Char}
    (hsign : sign = [] ∨ sign = ['+'] ∨ sign = ['-']) (hdigits : IsDigits digits) :
    splitSign (sign ++ (digits ++ rest)) = (sign, digits ++ rest) := by
  rcases hsign with rfl | rfl | rfl
  · obtain ⟨c, more, rfl⟩ := List.exists_cons_of_ne_nil hdigits.1
    have hdigit := hdigits.2 c List.mem_cons_self
    rw [List.nil_append, List.cons_append, splitSign]
    · rintro _ heq
      cases heq
      cases hdigit
    · rintro _ heq
      cases heq
      cases hdigit
  · rfl
  · rfl

/-- Behind its mark, an exponent is read after its sign. -/
lemma readExponent_mark {mark : Char} (hmark : mark = 'e' ∨ mark = 'E') (s : List Char) :
    readExponent (mark :: s) = match readDigits (splitSign s).2 with
      | some (digits, rest) => (mark :: (splitSign s).1 ++ digits, rest)
      | none => ([], mark :: s) := by
  unfold readExponent
  dsimp only
  rw [if_pos hmark]
  rfl

lemma readExponent_of_isExponent {exponent : List Char} (h : IsExponent exponent)
    (hrest : Follows rest) : readExponent (exponent ++ rest) = (exponent, rest) := by
  rcases h with rfl | ⟨mark, sign, digits, rfl, hmark, hsign, hdigits⟩
  · cases rest with
    | nil => rfl
    | cons c rest =>
      obtain ⟨-, -, he, hE⟩ := notMem_number_of_endsValue (hrest c rfl)
      exact if_neg (not_or.mpr ⟨he, hE⟩)
  · rw [List.cons_append, List.append_assoc, readExponent_mark hmark,
      splitSign_append hsign hdigits]
    simp only [readDigits_of_isDigits hdigits hrest.noDigit, List.cons_append]

lemma isExponent_of_readExponent {exponent : List Char} (h : readExponent s = (exponent, rest)) :
    IsExponent exponent ∧ s = exponent ++ rest := by
  cases s with
  | nil =>
    cases h
    exact ⟨.inl rfl, rfl⟩
  | cons mark more =>
    by_cases hmark : mark = 'e' ∨ mark = 'E'
    · obtain ⟨hmore, hsign⟩ := splitSign_spec more
      rw [readExponent_mark hmark] at h
      split at h
      · next hread =>
        cases h
        obtain ⟨hdigits, hleft⟩ := isDigits_of_readDigits hread
        refine ⟨.inr ⟨mark, _, _, rfl, hmark, hsign, hdigits⟩, ?_⟩
        rw [List.cons_append, List.cons_append, List.append_assoc, ← hleft, ← hmore]
      · cases h
        exact ⟨.inl rfl, rfl⟩
    · have hnone : readExponent (mark :: more) = ([], mark :: more) := if_neg hmark
      rw [hnone] at h
      cases h
      exact ⟨.inl rfl, rfl⟩

lemma IsExponent.head_cases {exponent : List Char} (h : IsExponent exponent)
    (hc : (exponent ++ rest).head? = some c) : c = 'e' ∨ c = 'E' ∨ rest.head? = some c := by
  rcases h with rfl | ⟨mark, sign, digits, rfl, hmark, -, -⟩
  · exact .inr (.inr hc)
  · cases hc
    rcases hmark with rfl | rfl
    · exact .inl rfl
    · exact .inr (.inl rfl)

lemma readMagnitude_of_isMagnitude {literal : List Char} (h : IsMagnitude literal)
    (hrest : Follows rest) : readMagnitude (literal ++ rest) = some (literal, rest) := by
  obtain ⟨hwhole, hfraction, hexponent⟩ := h
  rename_i whole fraction exponent
  have hafter (c : Char) (hc : (exponent ++ rest).head? = some c) :
      c.isDigit = false ∧ c ≠ '.' := by
    rcases hexponent.head_cases hc with rfl | rfl | hc
    · decide
    · decide
    · obtain ⟨hdigit, hpoint, -⟩ := notMem_number_of_endsValue (hrest c hc)
      exact ⟨hdigit, hpoint⟩
  have hfractionRest : NoDigit (exponent ++ rest) := fun c hc => (hafter c hc).1
  have hpoint : (exponent ++ rest).head? ≠ some '.' := fun hc => (hafter _ hc).2 rfl
  have hwholeRest : NoDigit (fraction ++ (exponent ++ rest)) := by
    rcases hfraction with rfl | ⟨digits, rfl, -⟩
    · exact hfractionRest
    · exact noDigit_cons (by decide) _
  rw [readMagnitude, List.append_assoc, List.append_assoc, readWhole_of_isWhole hwhole hwholeRest]
  simp only [Option.bind_eq_bind, Option.bind_some,
    readFraction_of_isFraction hfraction hfractionRest hpoint,
    readExponent_of_isExponent hexponent hrest, List.append_assoc]
  rfl

lemma isMagnitude_of_readMagnitude {literal : List Char}
    (h : readMagnitude s = some (literal, rest)) : IsMagnitude literal ∧ s = literal ++ rest := by
  obtain ⟨⟨whole, more⟩, hread, hparts⟩ := Option.bind_eq_some_iff.mp h
  rcases hpoint : readFraction more with ⟨fraction, left⟩
  rcases hmark : readExponent left with ⟨exponent, after⟩
  simp only [hpoint, hmark] at hparts
  cases hparts
  obtain ⟨hwhole, rfl⟩ := isWhole_of_readWhole hread
  obtain ⟨hfraction, rfl⟩ := isFraction_of_readFraction hpoint
  obtain ⟨hexponent, rfl⟩ := isExponent_of_readExponent hmark
  exact ⟨⟨hwhole, hfraction, hexponent⟩, by simp only [List.append_assoc]⟩

lemma IsMagnitude.exists_cons (h : IsMagnitude s) :
    ∃ c more, s = c :: more ∧ c.isDigit = true := by
  obtain ⟨rfl | ⟨⟨hne, hall⟩, -⟩, -, -⟩ := h
  · exact ⟨'0', _, rfl, rfl⟩
  · obtain ⟨c, more, rfl⟩ := List.exists_cons_of_ne_nil hne
    exact ⟨c, _, rfl, hall c List.mem_cons_self⟩

/-- A number starts with its sign or with a digit. -/
lemma IsNumber.exists_cons (h : IsNumber s) :
    ∃ c more, s = c :: more ∧ (c = '-' ∨ c.isDigit = true) := by
  cases h with
  | positive h =>
    obtain ⟨c, more, rfl, hdigit⟩ := h.exists_cons
    exact ⟨c, more, rfl, .inr hdigit⟩
  | negative h => exact ⟨'-', _, rfl, .inl rfl⟩

/-- A number is read, where something that may stand behind a value follows. -/
theorem readNumber_of_isNumber (h : IsNumber s) (hrest : Follows rest) :
    readNumber (s ++ rest) = some (.number (.ofList s), rest) := by
  cases h with
  | positive h =>
    rw [readNumber, readMagnitude_of_isMagnitude h hrest]
    · rfl
    · intro more heq
      obtain ⟨c, digits, rfl, hdigit⟩ := h.exists_cons
      cases heq
      cases hdigit
  | negative h =>
    rw [List.cons_append, readNumber, readMagnitude_of_isMagnitude h hrest]
    rfl

theorem isNumber_of_readNumber {data : Data} (h : readNumber s = some (data, rest)) :
    ∃ literal, s = literal ++ rest ∧ IsNumber literal ∧ data = .number (.ofList literal) := by
  unfold readNumber at h
  split at h
  · obtain ⟨⟨literal, _⟩, hread, h⟩ := Option.bind_eq_some_iff.mp h
    cases h
    obtain ⟨hliteral, rfl⟩ := isMagnitude_of_readMagnitude hread
    exact ⟨_, rfl, .negative hliteral, rfl⟩
  · obtain ⟨⟨literal, _⟩, hread, h⟩ := Option.bind_eq_some_iff.mp h
    cases h
    obtain ⟨hliteral, rfl⟩ := isMagnitude_of_readMagnitude hread
    exact ⟨_, rfl, .positive hliteral, rfl⟩

end Json

end ReleaseFlags
