import ReleaseFlags.Proofs.Json.Tokens
import ReleaseFlags.Proofs.Json.Values

/-!
# The documents that are read

The grammar of documents, told without the reader: which texts are values, and of which data
(`IsValue`).  The texts that the reader takes for a document are exactly those of the grammar, and
it finds their data (`read_eq_some_iff`).

In one direction a value is read and what follows it is left, if this may stand behind a value and
there are more steps than the value has characters (`takes_of_isValue`).  In the other direction
every reader takes blanks and one text of the grammar off the front, however many steps it has
(`takesGrammar`).
-/

namespace ReleaseFlags

namespace Json

/-! ### The grammar -/

/-- Blanks only. -/
def Blank (s : List Char) : Prop := ∀ c ∈ s, isBlank c = true

/-- The text that pieces of a literal stand for, if they stand for one. -/
def textOf (pieces : List Piece) : Option String := (joinPieces pieces).map String.ofList

/-- A value between blanks, and its data. -/
structure Element where
  before : List Char
  text : List Char
  after : List Char
  data : Data
  before_blank : Blank before
  after_blank : Blank after

def Element.chars (e : Element) : List Char := e.before ++ e.text ++ e.after

/-- A member of a record: a literal, a colon and a value. -/
structure Member where
  before : List Char
  /-- The body of the literal. -/
  name : List Char
  pieces : List Piece
  /-- The blanks in front of the colon. -/
  after : List Char
  value : Element
  before_blank : Blank before
  name_spells : Spells name pieces
  after_blank : Blank after

namespace Member

def chars (m : Member) : List Char :=
  m.before ++ '"' :: (m.name ++ '"' :: (m.after ++ ':' :: m.value.chars))

def data (m : Member) : Option String × Data := (textOf m.pieces, m.value.data)

end Member

/-- Parts with commas between them. -/
def separated (parts : List (List Char)) : List Char := [','].intercalate parts

/-- The text of a value, and its data. -/
inductive IsValue : List Char → Data → Prop
  | null : IsValue ['n', 'u', 'l', 'l'] .null
  | yes : IsValue ['t', 'r', 'u', 'e'] (.bool true)
  | no : IsValue ['f', 'a', 'l', 's', 'e'] (.bool false)
  | number {s : List Char} (h : IsNumber s) : IsValue s (.number (.ofList s))
  | text {body : List Char} {pieces : List Piece} (h : Spells body pieces) :
      IsValue ('"' :: (body ++ ['"'])) (.text (textOf pieces))
  | emptyList {blanks : List Char} (h : Blank blanks) :
      IsValue ('[' :: (blanks ++ [']'])) (.list [])
  | list {elements : List Element} (hne : elements ≠ [])
      (h : ∀ e ∈ elements, IsValue e.text e.data) :
      IsValue ('[' :: (separated (elements.map Element.chars) ++ [']']))
        (.list (elements.map Element.data))
  | emptyRecord {blanks : List Char} (h : Blank blanks) :
      IsValue ('\x7b' :: (blanks ++ ['\x7d'])) (.record [])
  | record {members : List Member} (hne : members ≠ [])
      (h : ∀ m ∈ members, IsValue m.value.text m.value.data) :
      IsValue ('\x7b' :: (separated (members.map Member.chars) ++ ['\x7d']))
        (.record (members.map Member.data))

/-- A document is a value between blanks. -/
inductive IsDocument : List Char → Data → Prop
  | intro (e : Element) (h : IsValue e.text e.data) : IsDocument e.chars e.data

variable {s rest text blanks : List Char} {data : Data} {steps : Nat}

@[simp] lemma separated_singleton (part : List Char) : separated [part] = part := by
  simp [separated]

lemma separated_cons_cons (part next : List Char) (parts : List (List Char)) :
    separated (part :: next :: parts) = part ++ ',' :: separated (next :: parts) := by
  simp [separated, List.intercalate, List.intersperse]

lemma skipBlanks_append (h : Blank blanks) (s : List Char) :
    skipBlanks (blanks ++ s) = skipBlanks s :=
  List.dropWhile_append_of_pos h

lemma skipBlanks_of_blank (h : Blank blanks) : skipBlanks blanks = [] :=
  List.dropWhile_eq_nil_iff.mpr h

/-- A text is what is skipped and what is left. -/
lemma exists_skipBlanks (s : List Char) : ∃ blanks, Blank blanks ∧ s = blanks ++ skipBlanks s :=
  ⟨s.takeWhile isBlank, fun _ hc => List.mem_takeWhile_imp hc,
    List.takeWhile_append_dropWhile.symm⟩

/-! ### Documents are read -/

lemma Follows.append (hblanks : Blank blanks) (hrest : Follows rest) :
    Follows (blanks ++ rest) := by
  cases blanks with
  | nil => exact hrest
  | cons c blanks =>
    rintro _ ⟨⟩
    simp [endsValue, hblanks c List.mem_cons_self]

lemma follows_nil : Follows [] := nofun

lemma follows_cons {c : Char} (h : endsValue c = true) (s : List Char) : Follows (c :: s) := by
  rintro _ ⟨⟩
  exact h

/-- The text is read as a value of the data, whatever follows. -/
def Takes (text : List Char) (data : Data) : Prop :=
  ∀ steps rest, Follows rest → text.length ≤ steps →
    readValue (steps + 1) (text ++ rest) = some (data, rest)

lemma not_blank_of_number {c : Char} (hc : c = '-' ∨ c.isDigit = true) : isBlank c = false := by
  rcases hc with rfl | hc
  · rfl
  · cases hblank : isBlank c with
    | false => rfl
    | true =>
      have hdigit := (notMem_number_of_endsValue (c := c) (by simp [endsValue, hblank])).1
      rw [hc] at hdigit
      cases hdigit

/-- The first character of a value is no blank, and does not end a list. -/
lemma IsValue.exists_cons (h : IsValue text data) : ∃ c more,
    text = c :: more ∧ isBlank c = false ∧ c ≠ ']' := by
  cases h with
  | null => exact ⟨'n', _, rfl, by decide, by decide⟩
  | yes => exact ⟨'t', _, rfl, by decide, by decide⟩
  | no => exact ⟨'f', _, rfl, by decide, by decide⟩
  | number h =>
    obtain ⟨c, more, rfl, hc⟩ := h.exists_cons
    refine ⟨c, more, rfl, not_blank_of_number hc, ?_⟩
    rintro rfl
    rcases hc with hc | hc <;> cases hc
  | text => exact ⟨'"', _, rfl, by decide, by decide⟩
  | emptyList => exact ⟨'[', _, rfl, by decide, by decide⟩
  | list => exact ⟨'[', _, rfl, by decide, by decide⟩
  | emptyRecord => exact ⟨'\x7b', _, rfl, by decide, by decide⟩
  | record => exact ⟨'\x7b', _, rfl, by decide, by decide⟩

/-- A value that starts with a sign or a digit is read as a number. -/
lemma readValue_number {c : Char} (hc : c = '-' ∨ c.isDigit = true) (s : List Char) :
    readValue (steps + 1) (c :: s) = readNumber (c :: s) := by
  rw [readValue, skipBlanks_of_not_blank (not_blank_of_number hc)]
  split
  all_goals
    first
    | rfl
    | next heq =>
      cases heq
      rcases hc with hc | hc <;> cases hc

/-- A value between blanks is read behind blanks, and leaves blanks. -/
lemma Takes.element {e : Element} (h : Takes e.text e.data) (hrest : Follows rest)
    (hsteps : e.chars.length ≤ steps) :
    readValue (steps + 1) (e.chars ++ rest) = some (e.data, e.after ++ rest) := by
  have htext : e.text.length ≤ steps := by
    simp only [Element.chars, List.length_append] at hsteps
    omega
  rw [Element.chars, List.append_assoc, List.append_assoc, ← readValue_skipBlanks,
    skipBlanks_append e.before_blank, readValue_skipBlanks]
  exact h steps _ (hrest.append e.after_blank) htext

/-- The elements of a list are read up to the closing bracket. -/
lemma readItems_separated {elements : List Element} (hne : elements ≠ [])
    (h : ∀ e ∈ elements, Takes e.text e.data)
    (hsteps : (separated (elements.map Element.chars)).length ≤ steps) (rest : List Char) :
    readItems (steps + 2) (separated (elements.map Element.chars) ++ ']' :: rest) =
      some (elements.map Element.data, rest) := by
  induction elements generalizing steps with
  | nil => exact (hne rfl).elim
  | cons e elements ih =>
    obtain ⟨he, hothers⟩ := List.forall_mem_cons.mp h
    cases elements with
    | nil =>
      simp only [List.map_cons, List.map_nil, separated_singleton] at hsteps ⊢
      refine readItems_last (he.element (follows_cons (by decide) _) (by omega)) ?_
      rw [skipBlanks_append e.after_blank]
      rfl
    | cons next elements =>
      simp only [List.map_cons, separated_cons_cons, List.length_append, List.length_cons]
        at hsteps ⊢
      obtain ⟨less, rfl⟩ : ∃ less, steps = less + 1 := ⟨steps - 1, by omega⟩
      have hless : (separated ((next :: elements).map Element.chars)).length ≤ less := by
        rw [List.map_cons]
        omega
      have hmore := ih nofun hothers hless
      rw [List.append_assoc, List.cons_append]
      refine readItems_more (he.element (follows_cons (by decide) _) (by omega)) ?_ hmore
      rw [skipBlanks_append e.after_blank]
      rfl

/-- A member is read up to the blanks behind its value. -/
lemma readsMember_chars {m : Member} (h : Takes m.value.text m.value.data) (hrest : Follows rest)
    (hsteps : m.chars.length ≤ steps) :
    ReadsMember (steps + 1) (m.chars ++ rest) m.data (m.value.after ++ rest) := by
  have hvalue : m.value.chars.length ≤ steps := by
    simp only [Member.chars, List.length_append, List.length_cons] at hsteps
    omega
  have hchars : m.chars ++ rest = m.before ++
      ('"' :: (m.name ++ '"' :: (m.after ++ ':' :: (m.value.chars ++ rest)))) := by
    simp [Member.chars]
  refine ⟨m.name ++ '"' :: (m.after ++ ':' :: (m.value.chars ++ rest)),
    m.after ++ ':' :: (m.value.chars ++ rest), m.value.chars ++ rest, ?_, ?_, ?_,
    h.element hrest hvalue⟩
  · rw [hchars, skipBlanks_append m.before_blank]
    rfl
  · rw [readText, readPieces_of_spells m.name_spells]
    rfl
  · rw [skipBlanks_append m.after_blank]
    rfl

/-- The members of a record are read up to the closing brace. -/
lemma readMembers_separated {members : List Member} (hne : members ≠ [])
    (h : ∀ m ∈ members, Takes m.value.text m.value.data)
    (hsteps : (separated (members.map Member.chars)).length ≤ steps) (rest : List Char) :
    readMembers (steps + 2) (separated (members.map Member.chars) ++ '\x7d' :: rest) =
      some (members.map Member.data, rest) := by
  induction members generalizing steps with
  | nil => exact (hne rfl).elim
  | cons m members ih =>
    obtain ⟨hm, hothers⟩ := List.forall_mem_cons.mp h
    cases members with
    | nil =>
      simp only [List.map_cons, List.map_nil, separated_singleton] at hsteps ⊢
      refine readMembers_last (readsMember_chars hm (follows_cons (by decide) _) (by omega)) ?_
      rw [skipBlanks_append m.value.after_blank]
      rfl
    | cons next members =>
      simp only [List.map_cons, separated_cons_cons, List.length_append, List.length_cons]
        at hsteps ⊢
      obtain ⟨less, rfl⟩ : ∃ less, steps = less + 1 := ⟨steps - 1, by omega⟩
      have hless : (separated ((next :: members).map Member.chars)).length ≤ less := by
        rw [List.map_cons]
        omega
      have hmore := ih nofun hothers hless
      rw [List.append_assoc, List.cons_append]
      refine readMembers_more (readsMember_chars hm (follows_cons (by decide) _) (by omega)) ?_
        hmore
      rw [skipBlanks_append m.value.after_blank]
      rfl

/-- Every value is read, and what follows it is left. -/
theorem takes_of_isValue (h : IsValue text data) : Takes text data := by
  induction h with
  | null => exact fun _ _ _ _ => rfl
  | yes => exact fun _ _ _ _ => rfl
  | no => exact fun _ _ _ _ => rfl
  | @number s h =>
    intro steps rest hrest _
    obtain ⟨c, more, rfl, hc⟩ := h.exists_cons
    rw [List.cons_append, readValue_number hc, ← List.cons_append]
    exact readNumber_of_isNumber h hrest
  | @text body pieces h =>
    intro steps rest _ _
    have hread := readPieces_of_spells h rest
    change (readText (body ++ ['"'] ++ rest) >>= fun read => some (Data.text read.1, read.2)) = _
    rw [List.append_assoc, List.singleton_append, readText, hread]
    rfl
  | @emptyList blanks h =>
    intro steps rest _ _
    have hskip : skipBlanks (blanks ++ [']'] ++ rest) = ']' :: rest := by
      rw [List.append_assoc, skipBlanks_append h]
      rfl
    rw [List.cons_append, readValue, skipBlanks_of_not_blank (by decide)]
    simp only [hskip]
  | @list elements hne hvalues ih =>
    intro steps rest hrest hsteps
    simp only [List.length_cons, List.length_append] at hsteps
    obtain ⟨less, rfl⟩ : ∃ less, steps = less + 2 := ⟨steps - 2, by omega⟩
    have hless : (separated (elements.map Element.chars)).length ≤ less := by omega
    have hitems := readItems_separated hne ih hless rest
    obtain ⟨e, others, rfl⟩ := List.exists_cons_of_ne_nil hne
    obtain ⟨c, more, htext, hblank, hbracket⟩ := (hvalues e List.mem_cons_self).exists_cons
    obtain ⟨after, hafter⟩ : ∃ after, separated ((e :: others).map Element.chars) =
        e.before ++ (c :: after) := by
      cases others with
      | nil => exact ⟨more ++ e.after, by simp [Element.chars, htext]⟩
      | cons next others => exact ⟨_, by simp [separated_cons_cons, Element.chars, htext]; rfl⟩
    have hfirst : skipBlanks (separated ((e :: others).map Element.chars) ++ ']' :: rest) =
        c :: (after ++ ']' :: rest) := by
      rw [hafter, List.append_assoc, skipBlanks_append e.before_blank, List.cons_append,
        skipBlanks_of_not_blank hblank]
    rw [List.cons_append, List.append_assoc, List.singleton_append]
    exact readValue_list hfirst hbracket hitems
  | @emptyRecord blanks h =>
    intro steps rest _ _
    have hskip : skipBlanks (blanks ++ ['}'] ++ rest) = '}' :: rest := by
      rw [List.append_assoc, skipBlanks_append h]
      rfl
    rw [List.cons_append, readValue, skipBlanks_of_not_blank (by decide)]
    simp only [hskip]
  | @record members hne _ ih =>
    intro steps rest hrest hsteps
    simp only [List.length_cons, List.length_append] at hsteps
    obtain ⟨less, rfl⟩ : ∃ less, steps = less + 2 := ⟨steps - 2, by omega⟩
    have hless : (separated (members.map Member.chars)).length ≤ less := by omega
    have hmembers := readMembers_separated hne ih hless rest
    obtain ⟨m, others, rfl⟩ := List.exists_cons_of_ne_nil hne
    obtain ⟨after, hafter⟩ : ∃ after, separated ((m :: others).map Member.chars) =
        m.before ++ ('"' :: after) := by
      cases others with
      | nil => exact ⟨_, by simp [Member.chars]; rfl⟩
      | cons next others => exact ⟨_, by simp [separated_cons_cons, Member.chars]; rfl⟩
    have hfirst : skipBlanks (separated ((m :: others).map Member.chars) ++ '}' :: rest) =
        '"' :: (after ++ '}' :: rest) := by
      rw [hafter, List.append_assoc, skipBlanks_append m.before_blank, List.cons_append,
        skipBlanks_of_not_blank (by decide)]
    rw [List.cons_append, List.append_assoc, List.singleton_append]
    exact readValue_record hfirst hmembers

/-! ### What is read is a document -/

/-- What the readers with so many steps take off the front is of the grammar. -/
structure TakesGrammar (steps : Nat) : Prop where
  value : ∀ s data rest, readValue steps s = some (data, rest) →
    ∃ blanks text, s = blanks ++ (text ++ rest) ∧ Blank blanks ∧ IsValue text data
  items : ∀ s items rest, readItems steps s = some (items, rest) → ∃ elements : List Element,
    elements ≠ [] ∧ s = separated (elements.map Element.chars) ++ ']' :: rest ∧
      items = elements.map Element.data ∧ ∀ e ∈ elements, IsValue e.text e.data
  members : ∀ s found rest, readMembers steps s = some (found, rest) → ∃ members : List Member,
    members ≠ [] ∧ s = separated (members.map Member.chars) ++ '}' :: rest ∧
      found = members.map Member.data ∧ ∀ m ∈ members, IsValue m.value.text m.value.data

namespace TakesGrammar

/-- A value and the blanks in front of what is left make an element. -/
lemma exists_element (h : TakesGrammar steps) (hread : readValue steps s = some (data, rest)) :
    ∃ e : Element, s = e.chars ++ skipBlanks rest ∧ e.data = data ∧ IsValue e.text e.data := by
  obtain ⟨before, text, rfl, hbefore, hvalue⟩ := h.value s data rest hread
  obtain ⟨after, hafter, hrest⟩ := exists_skipBlanks rest
  refine ⟨⟨before, text, after, data, hbefore, hafter⟩, ?_, rfl, hvalue⟩
  simp only [Element.chars, List.append_assoc]
  rw [← hrest]

lemma items_succ (h : TakesGrammar steps) {items : List Data}
    (hread : readItems (steps + 1) s = some (items, rest)) : ∃ elements : List Element,
      elements ≠ [] ∧ s = separated (elements.map Element.chars) ++ ']' :: rest ∧
        items = elements.map Element.data ∧ ∀ e ∈ elements, IsValue e.text e.data := by
  rw [readItems] at hread
  obtain ⟨⟨item, left⟩, hitem, hread⟩ := Option.bind_eq_some_iff.mp hread
  obtain ⟨e, rfl, rfl, he⟩ := h.exists_element hitem
  dsimp only at hread
  split at hread
  · next more hcomma =>
    obtain ⟨⟨others, _⟩, hothers, hread⟩ := Option.bind_eq_some_iff.mp hread
    cases hread
    obtain ⟨elements, hne, rfl, rfl, hall⟩ := h.items more _ _ hothers
    obtain ⟨next, elements, rfl⟩ := List.exists_cons_of_ne_nil hne
    refine ⟨e :: next :: elements, List.cons_ne_nil _ _, ?_, rfl,
      List.forall_mem_cons.mpr ⟨he, hall⟩⟩
    rw [hcomma]
    simp [separated_cons_cons]
  · next more hbracket =>
    cases hread
    refine ⟨[e], List.cons_ne_nil _ _, ?_, rfl, List.forall_mem_singleton.mpr he⟩
    rw [hbracket, List.map_singleton, separated_singleton]
  · cases hread

lemma members_succ (h : TakesGrammar steps) {found : List (Option String × Data)}
    (hread : readMembers (steps + 1) s = some (found, rest)) : ∃ members : List Member,
      members ≠ [] ∧ s = separated (members.map Member.chars) ++ '}' :: rest ∧
        found = members.map Member.data ∧ ∀ m ∈ members, IsValue m.value.text m.value.data := by
  obtain ⟨before, hbefore, hs⟩ := exists_skipBlanks s
  rw [readMembers] at hread
  split at hread
  · next literal hquote =>
    obtain ⟨⟨name, left⟩, hname, hcolon⟩ := Option.bind_eq_some_iff.mp hread
    obtain ⟨⟨pieces, _⟩, hpieces, heq⟩ := Option.bind_eq_some_iff.mp hname
    cases heq
    obtain ⟨body, hbody, hspells⟩ := exists_spells_of_readPieces hpieces
    obtain ⟨blanks, hblanks, hleft⟩ := exists_skipBlanks left
    dsimp only at hcolon
    split at hcolon
    · next more hmore =>
      obtain ⟨⟨value, after⟩, hvalue, hend⟩ := Option.bind_eq_some_iff.mp hcolon
      obtain ⟨e, hchars, rfl, he⟩ := h.exists_element hvalue
      let m : Member := ⟨before, body, pieces, blanks, e, hbefore, hspells, hblanks⟩
      have hm : s = m.chars ++ skipBlanks after := by
        rw [hs, hquote, hbody, hleft, hmore, hchars]
        simp [m, Member.chars]
      dsimp only at hend
      split at hend
      · next others hcomma =>
        obtain ⟨⟨rest, _⟩, hothers, heq⟩ := Option.bind_eq_some_iff.mp hend
        cases heq
        obtain ⟨members, hne, rfl, rfl, hall⟩ := h.members others _ _ hothers
        obtain ⟨next, members, rfl⟩ := List.exists_cons_of_ne_nil hne
        refine ⟨m :: next :: members, List.cons_ne_nil _ _, ?_, rfl,
          List.forall_mem_cons.mpr ⟨he, hall⟩⟩
        rw [hm, hcomma]
        simp [separated_cons_cons]
      · next hbrace =>
        cases hend
        refine ⟨[m], List.cons_ne_nil _ _, ?_, rfl, List.forall_mem_singleton.mpr he⟩
        rw [hm, hbrace, List.map_singleton, separated_singleton]
      · cases hend
    · cases hcolon
  · cases hread

lemma value_succ (h : TakesGrammar steps) (hread : readValue (steps + 1) s = some (data, rest)) :
    ∃ blanks text, s = blanks ++ (text ++ rest) ∧ Blank blanks ∧ IsValue text data := by
  obtain ⟨before, hbefore, hs⟩ := exists_skipBlanks s
  -- the text of the value stands behind the blanks
  suffices htext : ∃ text, skipBlanks s = text ++ rest ∧ IsValue text data by
    obtain ⟨text, htext, hvalue⟩ := htext
    exact ⟨before, text, htext ▸ hs, hbefore, hvalue⟩
  rw [readValue] at hread
  split at hread
  · next more hbrace =>
    obtain ⟨blanks, hblanks, hmore⟩ := exists_skipBlanks more
    split at hread
    · next hend =>
      cases hread
      exact ⟨_, by rw [hbrace, hmore, hend]; simp, .emptyRecord hblanks⟩
    · obtain ⟨⟨found, _⟩, hfound, heq⟩ := Option.bind_eq_some_iff.mp hread
      cases heq
      rw [readMembers_skipBlanks] at hfound
      obtain ⟨members, hne, rfl, rfl, hall⟩ := h.members more _ _ hfound
      exact ⟨_, by rw [hbrace]; simp, .record hne hall⟩
  · next more hbracket =>
    obtain ⟨blanks, hblanks, hmore⟩ := exists_skipBlanks more
    split at hread
    · next hend =>
      cases hread
      exact ⟨_, by rw [hbracket, hmore, hend]; simp, .emptyList hblanks⟩
    · obtain ⟨⟨items, _⟩, hitems, heq⟩ := Option.bind_eq_some_iff.mp hread
      cases heq
      rw [readItems_skipBlanks] at hitems
      obtain ⟨elements, hne, rfl, rfl, hall⟩ := h.items more _ _ hitems
      exact ⟨_, by rw [hbracket]; simp, .list hne hall⟩
  · next literal hquote =>
    obtain ⟨⟨content, _⟩, hcontent, heq⟩ := Option.bind_eq_some_iff.mp hread
    cases heq
    obtain ⟨⟨pieces, _⟩, hpieces, heq⟩ := Option.bind_eq_some_iff.mp hcontent
    cases heq
    obtain ⟨body, rfl, hspells⟩ := exists_spells_of_readPieces hpieces
    exact ⟨_, by rw [hquote]; simp, .text hspells⟩
  · next heq =>
    cases hread
    exact ⟨_, heq, .yes⟩
  · next heq =>
    cases hread
    exact ⟨_, heq, .no⟩
  · next heq =>
    cases hread
    exact ⟨_, heq, .null⟩
  · obtain ⟨literal, hliteral, hnumber, rfl⟩ := isNumber_of_readNumber hread
    exact ⟨literal, hliteral, .number hnumber⟩

end TakesGrammar

/-- The readers take texts of the grammar, whatever the bound on their steps is. -/
lemma takesGrammar (steps : Nat) : TakesGrammar steps := by
  induction steps with
  | zero =>
    refine ⟨fun s data rest h => ?_, fun s items rest h => ?_, fun s found rest h => ?_⟩
    · rw [readValue] at h
      cases h
    · rw [readItems] at h
      cases h
    · rw [readMembers] at h
      cases h
  | succ steps ih =>
    exact ⟨fun _ _ _ => ih.value_succ, fun _ _ _ => ih.items_succ, fun _ _ _ => ih.members_succ⟩

/-- **The texts that are read.**  They are the documents of the grammar, and their data is found. -/
theorem read_eq_some_iff {document : String} :
    read document = some data ↔ IsDocument document.toList data := by
  constructor
  · intro h
    unfold read at h
    dsimp only at h
    split at h
    · next rest hread =>
      split at h
      · next hend =>
        cases h
        obtain ⟨e, hchars, rfl, he⟩ := (takesGrammar _).exists_element hread
        rw [hend, List.append_nil] at hchars
        exact hchars ▸ .intro e he
      · cases h
    · cases h
  · intro h
    generalize hchars : document.toList = chars at h
    obtain ⟨e, he⟩ := h
    have hsteps : e.chars.length ≤ 2 * e.chars.length + 1 := by omega
    have hread := (takes_of_isValue he).element follows_nil hsteps
    rw [List.append_nil, List.append_nil] at hread
    unfold read
    simp only [hchars, hread, skipBlanks_of_blank e.after_blank, if_true]

end Json

end ReleaseFlags
