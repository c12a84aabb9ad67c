import ReleaseFlags.Path
import ReleaseFlags.Proofs.Words

/-!
# Lines of assignments

A text whose lines end with line feeds is taken apart into its lines, and a line is split where the
mark of an assignment occurs first.  Lines that hold no line feed are read back from the text that
was made of them (`lines_unlines`), and so is an assignment to a name without spaces, whatever its
value is (`assignment?_assignment`).
-/

namespace ReleaseFlags

/-! ### Lines -/

/-- The text holds no line feed. -/
def OneLine (text : String) : Prop := '\n' ∉ text.toList

instance (text : String) : Decidable (OneLine text) := inferInstanceAs (Decidable (¬ _))

/-- The lines of a text, each of which ends with a line feed. -/
def lines (text : String) : List String := (pieces '\n' text.toList).dropLast.map String.ofList

/-- The text of the lines. -/
def unlines (ls : List String) : String := String.join (ls.map (· ++ "\n"))

@[simp] lemma unlines_cons (line : String) (ls : List String) :
    unlines (line :: ls) = line ++ "\n" ++ unlines ls := by
  rw [unlines, List.map_cons, String.join_cons, unlines]

@[simp] lemma unlines_singleton (line : String) : unlines [line] = line ++ "\n" := by
  rw [unlines_cons]
  exact String.append_empty

lemma unlines_ite (p : Prop) [Decidable p] (line : String) :
    unlines (if p then [line] else []) = if p then line ++ "\n" else "" := by
  split
  · exact unlines_singleton line
  · rfl

@[simp] lemma unlines_append (ls more : List String) :
    unlines (ls ++ more) = unlines ls ++ unlines more := by
  rw [unlines, List.map_append, String.join_append, unlines, unlines]

/-- Line feeds between lines, and one at the end. -/
lemma intercalate_lineFeed {ls : List String} (h : ls ≠ []) :
    "\n".intercalate ls ++ "\n" = unlines ls := by
  induction ls with
  | nil => exact absurd rfl h
  | cons line ls ih =>
    cases ls with
    | nil => rw [String.intercalate_singleton, unlines_singleton]
    | cons second ls =>
      rw [String.intercalate_cons_cons, String.append_assoc, ih (List.cons_ne_nil _ _),
        unlines_cons line]

/-- What holds no line feed and occurs in a text occurs in one of its lines. -/
lemma exists_of_infix_unlines {part : List Char} {ls : List String} (hne : part ≠ [])
    (hpart : '\n' ∉ part) (h : part <:+: (unlines ls).toList) :
    ∃ line ∈ ls, part <:+: line.toList := by
  have hsplit {front back : List Char} (h : part <:+: front ++ '\n' :: back) :
      part <:+: front ∨ part <:+: back := by
    obtain ⟨before, after, heq⟩ := h
    rcases List.append_eq_append_iff.mp heq with ⟨more, hfront, -⟩ | ⟨more, hover, hback⟩
    · exact .inl ⟨before, more, hfront.symm⟩
    · cases more with
      | nil =>
        rw [List.append_nil] at hover
        exact .inl ⟨before, [], by rw [hover, List.append_nil]⟩
      | cons c more =>
        obtain ⟨rfl, rfl⟩ := List.cons.inj hback
        -- the line feed is in the part, or comes before it
        rcases List.append_eq_append_iff.mp hover with ⟨gap, -, hgap⟩ | ⟨gap, -, hgap⟩
        · exact absurd (hgap ▸ by simp) hpart
        · cases gap with
          | nil =>
            rw [List.nil_append] at hgap
            exact absurd (hgap ▸ by simp) hpart
          | cons c gap =>
            obtain ⟨rfl, rfl⟩ := List.cons.inj hgap
            exact .inr ⟨gap, after, rfl⟩
  induction ls with
  | nil => exact absurd (List.infix_nil.mp h) hne
  | cons line ls ih =>
    have htext : (unlines (line :: ls)).toList = line.toList ++ '\n' :: (unlines ls).toList := by
      simp
    rw [htext] at h
    rcases hsplit h with h | h
    · exact ⟨line, List.mem_cons_self, h⟩
    · obtain ⟨other, hother, h⟩ := ih h
      exact ⟨other, List.mem_cons_of_mem _ hother, h⟩

/-- Lines are read back from their text. -/
lemma lines_unlines {ls : List String} (h : ∀ line ∈ ls, OneLine line) :
    lines (unlines ls) = ls := by
  induction ls with
  | nil => rfl
  | cons line ls ih =>
    obtain ⟨hline, hrest⟩ := List.forall_mem_cons.mp h
    have htext : (unlines (line :: ls)).toList = line.toList ++ '\n' :: (unlines ls).toList := by
      simp
    have hne := (unlines ls).toList.splitOn_ne_nil '\n'
    have ih := ih hrest
    rw [lines, pieces_eq_splitOn] at ih ⊢
    rw [htext, List.splitOn_append_cons_self, List.splitOn_eq_singleton hline,
      List.singleton_append, List.dropLast_cons_of_ne_nil hne, List.map_cons,
      String.ofList_toList, ih]

lemma OneLine.append {first second : String} (h : OneLine first) (h' : OneLine second) :
    OneLine (first ++ second) := by
  rw [OneLine, String.toList_append, List.mem_append, not_or]
  exact ⟨h, h'⟩

/-- A line of words is one line if every word is. -/
lemma OneLine.toLine {words : List String} (h : ∀ word ∈ words, OneLine word) :
    OneLine (Words.toLine words) := by
  induction words with
  | nil => decide
  | cons first rest ih =>
    obtain ⟨hfirst, hrest⟩ := List.forall_mem_cons.mp h
    have ih := ih hrest
    rw [Words.toLine] at ih ⊢
    cases rest with
    | nil => simpa using hfirst
    | cons second rest =>
      rw [String.intercalate_cons_cons]
      exact (hfirst.append (by decide)).append ih

/-! ### Assignments -/

lemma stripFront_eq_some {front text after : List Char} :
    Path.stripFront front text = some after ↔ text = front ++ after := by
  induction front generalizing text with
  | nil => simp [Path.stripFront]
  | cons c front ih =>
    cases text with
    | nil => simp [Path.stripFront]
    | cons x text =>
      by_cases heq : c = x
      · simp [Path.stripFront, heq, ih]
      · simp [Path.stripFront, heq, Ne.symm heq]

/-- What is before and after the first occurrence of a separator. -/
def splitAtFirst (separator : List Char) : List Char → Option (List Char × List Char)
  | [] => none
  | c :: rest =>
    match Path.stripFront separator (c :: rest) with
    | some after => some ([], after)
    | none => (splitAtFirst separator rest).map fun split => (c :: split.1, split.2)

/-- The first occurrence is found behind a text without the first character of the separator. -/
lemma splitAtFirst_append {first : Char} {before : List Char} (h : first ∉ before)
    (separator after : List Char) :
    splitAtFirst (first :: separator) (before ++ first :: separator ++ after) =
      some (before, after) := by
  induction before with
  | nil =>
    have hstrip : Path.stripFront (first :: separator) (first :: (separator ++ after)) =
        some after := stripFront_eq_some.mpr rfl
    simp [splitAtFirst, hstrip]
  | cons c before ih =>
    obtain ⟨hne, hrest⟩ := not_or.mp (mt List.mem_cons.mpr h)
    have hstrip : Path.stripFront (first :: separator)
        (c :: (before ++ first :: separator ++ after)) = none := if_neg hne
    rw [List.cons_append, List.cons_append, splitAtFirst, hstrip]
    simp only [ih hrest, Option.map_some]

lemma eq_of_splitAtFirst {separator text before after : List Char}
    (h : splitAtFirst separator text = some (before, after)) :
    text = before ++ separator ++ after := by
  induction text generalizing before with
  | nil => cases h
  | cons c rest ih =>
    rw [splitAtFirst] at h
    split at h
    · next hstrip =>
      cases h
      exact stripFront_eq_some.mp hstrip
    · obtain ⟨split, hsplit, heq⟩ := Option.map_eq_some_iff.mp h
      cases heq
      rw [ih hsplit, List.cons_append, List.cons_append]

/-- The line that assigns the value to the name. -/
def assignment (name value : String) : String := name ++ " :=$= " ++ value

/-- The name and the value of the assignment in a line, split where the mark occurs first. -/
def assignment? (line : String) : Option (String × String) :=
  (splitAtFirst " :=$= ".toList line.toList).map fun split => (.ofList split.1, .ofList split.2)

/-- An assignment is read back, also if its value holds the mark of an assignment. -/
lemma assignment?_assignment {name : String} (h : ' ' ∉ name.toList) (value : String) :
    assignment? (assignment name value) = some (name, value) := by
  have hsplit := splitAtFirst_append h ":=$= ".toList value.toList
  have hline : (assignment name value).toList =
      name.toList ++ ' ' :: ":=$= ".toList ++ value.toList := by
    simp [assignment]
  rw [assignment?, hline]
  change (splitAtFirst (' ' :: ":=$= ".toList) _).map _ = _
  rw [hsplit, Option.map_some, String.ofList_toList, String.ofList_toList]

/-- What is read as an assignment starts with the name. -/
lemma prefix_of_assignment? {line name value : String} (h : assignment? line = some (name, value)) :
    name.toList <+: line.toList := by
  obtain ⟨split, hsplit, heq⟩ := Option.map_eq_some_iff.mp h
  cases heq
  rw [String.toList_ofList, eq_of_splitAtFirst hsplit, List.append_assoc]
  exact List.prefix_append _ _

/-- Assignments to names without spaces are read back in order. -/
lemma filterMap_assignment? {entries : List (String × String)}
    (h : ∀ entry ∈ entries, ' ' ∉ entry.1.toList) :
    (entries.map fun entry => assignment entry.1 entry.2).filterMap assignment? = entries := by
  induction entries with
  | nil => rfl
  | cons entry entries ih =>
    obtain ⟨hentry, hrest⟩ := List.forall_mem_cons.mp h
    rw [List.map_cons, List.filterMap_cons_some (assignment?_assignment hentry entry.2), ih hrest]

end ReleaseFlags
