import ReleaseFlags.Proofs.Json.Literals

/-!
# Documents are read back

A printed value starts with a character that tells its kind, and between its parts there are blanks
only where a reader skips them.  So reading a printed value gives the value again, and stops where
it ends (`readValue_printValue`).  The bound on the steps of the reader is never reached, since
every step consumes a character.

Numbers are left out: their spelling is kept as it was read, and only a spelling that is a number is
read back.
-/

namespace ReleaseFlags

/-- No number occurs in the data. -/
inductive Data.Plain : Data → Prop
  | null : Plain .null
  | bool (on : Bool) : Plain (.bool on)
  | text (content : Option String) : Plain (.text content)
  | list {items : List Data} (h : ∀ item ∈ items, Plain item) : Plain (.list items)
  | record {members : List (Option String × Data)} (h : ∀ member ∈ members, Plain member.2) :
      Plain (.record members)

namespace Json

variable {data : Data} {steps : Nat}

/-! ### Blanks -/

@[simp] lemma skipBlanks_newline (s : List Char) : skipBlanks ('\n' :: s) = skipBlanks s := rfl

@[simp] lemma skipBlanks_space (s : List Char) : skipBlanks (' ' :: s) = skipBlanks s := rfl

@[simp] lemma skipBlanks_indent (depth : Nat) (s : List Char) :
    skipBlanks (indent depth ++ s) = skipBlanks s := by
  unfold indent
  induction 2 * depth with
  | zero => rfl
  | succ n ih => rw [List.replicate_succ, List.cons_append, skipBlanks_space, ih]

lemma skipBlanks_of_not_blank {c : Char} (h : isBlank c = false) (s : List Char) :
    skipBlanks (c :: s) = c :: s := by
  rw [skipBlanks, List.dropWhile_cons_of_neg]
  simp [h]

@[simp] lemma skipBlanks_skipBlanks (s : List Char) : skipBlanks (skipBlanks s) = skipBlanks s := by
  induction s with
  | nil => rfl
  | cons c s ih =>
    cases h : isBlank c with
    | true =>
      have hskip : skipBlanks (c :: s) = skipBlanks s := List.dropWhile_cons_of_pos h
      rw [hskip, ih]
    | false => rw [skipBlanks_of_not_blank h, skipBlanks_of_not_blank h]

/-- Blanks in front of a value make no difference. -/
lemma readValue_skipBlanks (steps : Nat) (s : List Char) :
    readValue steps (skipBlanks s) = readValue steps s := by
  cases steps with
  | zero => rw [readValue, readValue]
  | succ steps => rw [readValue, readValue, skipBlanks_skipBlanks]

lemma readItems_skipBlanks (steps : Nat) (s : List Char) :
    readItems steps (skipBlanks s) = readItems steps s := by
  cases steps with
  | zero => rw [readItems, readItems]
  | succ steps => rw [readItems, readItems, readValue_skipBlanks]

lemma readMembers_skipBlanks (steps : Nat) (s : List Char) :
    readMembers steps (skipBlanks s) = readMembers steps s := by
  cases steps with
  | zero => rw [readMembers, readMembers]
  | succ steps => rw [readMembers, readMembers, skipBlanks_skipBlanks]

/-! ### Steps of the reader -/

section Steps

variable {s after more rest : List Char} {item : Data} {items : List Data}
  {member : Option String × Data} {members : List (Option String × Data)}

lemma readItems_last (hitem : readValue steps s = some (item, after))
    (hafter : skipBlanks after = ']' :: rest) :
    readItems (steps + 1) s = some ([item], rest) := by
  simp only [readItems, hitem, Option.bind_eq_bind, Option.bind_some, hafter]
  rfl

lemma readItems_more (hitem : readValue steps s = some (item, after))
    (hafter : skipBlanks after = ',' :: more) (hmore : readItems steps more = some (items, rest)) :
    readItems (steps + 1) s = some (item :: items, rest) := by
  simp only [readItems, hitem, Option.bind_eq_bind, Option.bind_some, hafter, hmore]
  rfl

/-- A member is read as its name, a colon and its value. -/
def ReadsMember (steps : Nat) (s : List Char) (member : Option String × Data)
    (after : List Char) : Prop :=
  ∃ literal colon value, skipBlanks s = '"' :: literal ∧
    readText literal = some (member.1, colon) ∧ skipBlanks colon = ':' :: value ∧
      readValue steps value = some (member.2, after)

lemma readMembers_last (hmember : ReadsMember steps s member after)
    (hafter : skipBlanks after = '\x7d' :: rest) :
    readMembers (steps + 1) s = some ([member], rest) := by
  obtain ⟨literal, colon, value, hs, hname, hcolon, hvalue⟩ := hmember
  simp only [readMembers, hs, hname, hcolon, hvalue, Option.bind_eq_bind, Option.bind_some, hafter]
  rfl

lemma readMembers_more (hmember : ReadsMember steps s member after)
    (hafter : skipBlanks after = ',' :: more)
    (hmore : readMembers steps more = some (members, rest)) :
    readMembers (steps + 1) s = some (member :: members, rest) := by
  obtain ⟨literal, colon, value, hs, hname, hcolon, hvalue⟩ := hmember
  simp only [readMembers, hs, hname, hcolon, hvalue, Option.bind_eq_bind, Option.bind_some, hafter,
    hmore]
  rfl

/-- A list that is not empty is read as its items. -/
lemma readValue_list {c : Char} (hfirst : skipBlanks s = c :: more) (hne : c ≠ ']')
    (hitems : readItems steps s = some (items, rest)) :
    readValue (steps + 1) ('[' :: s) = some (.list items, rest) := by
  rw [← readItems_skipBlanks, hfirst] at hitems
  rw [readValue, skipBlanks_of_not_blank (by decide)]
  simp only [hfirst]
  split
  · next heq =>
    cases heq
    exact (hne rfl).elim
  · rw [hitems]
    rfl

/-- A record that is not empty is read as its members. -/
lemma readValue_record (hfirst : skipBlanks s = '"' :: more)
    (hmembers : readMembers steps s = some (members, rest)) :
    readValue (steps + 1) ('\x7b' :: s) = some (.record members, rest) := by
  rw [← readMembers_skipBlanks, hfirst] at hmembers
  rw [readValue, skipBlanks_of_not_blank (by decide)]
  simp only [hfirst]
  change (readMembers steps ('"' :: more)).bind _ = _
  rw [hmembers]
  rfl

end Steps

/-! ### Values -/

/-- The first character of a printed value is no blank, and does not end a list. -/
lemma exists_printValue (h : data.Plain) (depth : Nat) : ∃ c more,
    printValue depth data = c :: more ∧ isBlank c = false ∧ c ≠ ']' := by
  cases h with
  | null => exact ⟨'n', "ull".toList, by rw [printValue]; rfl, by decide, by decide⟩
  | bool on =>
    cases on with
    | true => exact ⟨'t', "rue".toList, by rw [printValue]; rfl, by decide, by decide⟩
    | false => exact ⟨'f', "alse".toList, by rw [printValue]; rfl, by decide, by decide⟩
  | text content =>
    obtain ⟨literal, hliteral, -⟩ := readText_quote? content []
    rw [List.append_nil] at hliteral
    exact ⟨'"', literal, by rw [printValue, hliteral], by decide, by decide⟩
  | @list items _ =>
    cases items with
    | nil => exact ⟨'[', [']'], by rw [printValue]; rfl, by decide, by decide⟩
    | cons item items => exact ⟨'[', _, by rw [printValue]; rfl, by decide, by decide⟩
  | @record members _ =>
    cases members with
    | nil => exact ⟨'\x7b', ['\x7d'], by rw [printValue]; rfl, by decide, by decide⟩
    | cons member members => exact ⟨'\x7b', _, by rw [printValue]; rfl, by decide, by decide⟩

/-- The last character of a printed value is no line feed. -/
lemma exists_printValue_last (h : data.Plain) (depth : Nat) : ∃ front c,
    printValue depth data = front ++ [c] ∧ c ≠ '\n' := by
  cases h with
  | null => exact ⟨"nul".toList, 'l', by rw [printValue]; rfl, by decide⟩
  | bool on =>
    cases on with
    | true => exact ⟨"tru".toList, 'e', by rw [printValue]; rfl, by decide⟩
    | false => exact ⟨"fals".toList, 'e', by rw [printValue]; rfl, by decide⟩
  | text content =>
    cases content with
    | some content =>
      exact ⟨'"' :: content.toList.flatMap escape, '"', by rw [printValue]; rfl, by decide⟩
    | none => exact ⟨"\"\\ud800".toList, '"', by rw [printValue]; rfl, by decide⟩
  | @list items _ =>
    cases items with
    | nil => exact ⟨['['], ']', by rw [printValue]; rfl, by decide⟩
    | cons item items => exact ⟨_, ']', by rw [printValue], by decide⟩
  | @record members _ =>
    cases members with
    | nil => exact ⟨['\x7b'], '\x7d', by rw [printValue]; rfl, by decide⟩
    | cons member members => exact ⟨_, '\x7d', by rw [printValue], by decide⟩

/-- A value is read back, wherever it is printed and whatever follows it, if there are more steps
than it has characters. -/
def ReadBack (data : Data) : Prop :=
  ∀ depth steps rest, (printValue depth data).length ≤ steps →
    readValue (steps + 1) (printValue depth data ++ rest) = some (data, rest)

lemma printItems_cons (depth : Nat) (item next : Data) (items : List Data) :
    printItems depth (item :: next :: items) = indent depth ++ printValue depth item ++
      ',' :: '\n' :: printItems depth (next :: items) := by
  rw [printItems]
  exact nofun

lemma printMembers_cons (depth : Nat) (member next : Option String × Data)
    (members : List (Option String × Data)) :
    printMembers depth (member :: next :: members) =
      indent depth ++ quote? member.1 ++ ':' :: ' ' :: printValue depth member.2 ++
        ',' :: '\n' :: printMembers depth (next :: members) := by
  rw [printMembers]
  exact nofun

/-- Behind blanks, printed items start with a character that does not end the list. -/
lemma exists_printItems {item : Data} (h : item.Plain) (items : List Data) (depth : Nat)
    (rest : List Char) : ∃ c more,
      skipBlanks ('\n' :: (printItems depth (item :: items) ++ rest)) = c :: more ∧ c ≠ ']' := by
  obtain ⟨c, more, hprint, hblank, hne⟩ := exists_printValue h depth
  obtain ⟨after, hafter⟩ : ∃ after,
      printItems depth (item :: items) = indent depth ++ (printValue depth item ++ after) := by
    cases items with
    | nil => exact ⟨[], by rw [printItems, List.append_nil]⟩
    | cons next items => exact ⟨_, by rw [printItems_cons, List.append_assoc]⟩
  refine ⟨c, more ++ (after ++ rest), ?_, hne⟩
  rw [hafter, hprint, skipBlanks_newline]
  simp only [List.append_assoc, skipBlanks_indent, List.cons_append]
  exact skipBlanks_of_not_blank hblank _

/-- Behind blanks, printed members start with a quote. -/
lemma exists_printMembers (member : Option String × Data) (members : List (Option String × Data))
    (depth : Nat) (rest : List Char) : ∃ more,
      skipBlanks ('\n' :: (printMembers depth (member :: members) ++ rest)) = '"' :: more := by
  obtain ⟨after, hafter⟩ : ∃ after,
      printMembers depth (member :: members) = indent depth ++ (quote? member.1 ++ after) := by
    cases members with
    | nil => exact ⟨_, by rw [printMembers, List.append_assoc]⟩
    | cons next members =>
      exact ⟨_, by rw [printMembers_cons, List.append_assoc, List.append_assoc]⟩
  obtain ⟨literal, hliteral, -⟩ := readText_quote? member.1 (after ++ rest)
  refine ⟨literal, ?_⟩
  rw [hafter, skipBlanks_newline]
  simp only [List.append_assoc, skipBlanks_indent, hliteral]
  exact skipBlanks_of_not_blank (by decide) _

/-- A value is read back behind blanks. -/
lemma ReadBack.of_indent (h : ReadBack data) {depth : Nat}
    (hsteps : (printValue depth data).length ≤ steps) (rest : List Char) :
    readValue (steps + 1) (indent depth ++ (printValue depth data ++ rest)) =
      some (data, rest) := by
  rw [← readValue_skipBlanks, skipBlanks_indent, readValue_skipBlanks]
  exact h depth steps rest hsteps

/-- The items of a list are read back up to the closing bracket. -/
lemma readItems_printItems {items : List Data} (hitems : ∀ item ∈ items, ReadBack item)
    (hne : items ≠ []) {depth : Nat} (hsteps : (printItems depth items).length ≤ steps)
    (outer : Nat) (rest : List Char) :
    readItems (steps + 2) (printItems depth items ++ '\n' :: (indent outer ++ ']' :: rest)) =
      some (items, rest) := by
  induction items generalizing steps with
  | nil => exact (hne rfl).elim
  | cons item items ih =>
    have hitem := hitems item List.mem_cons_self
    cases items with
    | nil =>
      rw [printItems] at hsteps ⊢
      rw [List.length_append] at hsteps
      rw [List.append_assoc]
      refine readItems_last (hitem.of_indent (by omega) _) ?_
      rw [skipBlanks_newline, skipBlanks_indent]
      rfl
    | cons next items =>
      rw [printItems_cons] at hsteps ⊢
      simp only [List.length_append, List.length_cons] at hsteps
      obtain ⟨less, rfl⟩ : ∃ less, steps = less + 1 := ⟨steps - 1, by omega⟩
      have hless : (printItems depth (next :: items)).length ≤ less := by omega
      have hmore := ih (fun item hmem => hitems item (List.mem_cons_of_mem _ hmem)) nofun hless
      simp only [List.append_assoc, List.cons_append]
      refine readItems_more (hitem.of_indent (by omega) _) rfl ?_
      rw [← readItems_skipBlanks, skipBlanks_newline, readItems_skipBlanks]
      exact hmore

/-- A member is read back behind blanks. -/
lemma readsMember_print {member : Option String × Data} (h : ReadBack member.2) {depth : Nat}
    (hsteps : (printValue depth member.2).length ≤ steps) (rest : List Char) :
    ReadsMember (steps + 1)
      (indent depth ++ (quote? member.1 ++ ':' :: ' ' :: (printValue depth member.2 ++ rest)))
      member rest := by
  obtain ⟨literal, hliteral, hname⟩ := readText_quote? member.1
    (':' :: ' ' :: (printValue depth member.2 ++ rest))
  refine ⟨literal, _, _, ?_, hname, rfl, ?_⟩
  · rw [skipBlanks_indent, hliteral]
    rfl
  · rw [← readValue_skipBlanks, skipBlanks_space, readValue_skipBlanks]
    exact h depth steps rest hsteps

/-- The members of a record are read back up to the closing brace. -/
lemma readMembers_printMembers {members : List (Option String × Data)}
    (hmembers : ∀ member ∈ members, ReadBack member.2) (hne : members ≠ []) {depth : Nat}
    (hsteps : (printMembers depth members).length ≤ steps) (outer : Nat) (rest : List Char) :
    readMembers (steps + 2)
      (printMembers depth members ++ '\n' :: (indent outer ++ '\x7d' :: rest)) =
        some (members, rest) := by
  induction members generalizing steps with
  | nil => exact (hne rfl).elim
  | cons member members ih =>
    have hmember := hmembers member List.mem_cons_self
    cases members with
    | nil =>
      rw [printMembers] at hsteps ⊢
      simp only [List.length_append, List.length_cons] at hsteps
      simp only [List.append_assoc, List.cons_append]
      refine readMembers_last (readsMember_print hmember (by omega) _) ?_
      rw [skipBlanks_newline, skipBlanks_indent]
      rfl
    | cons next members =>
      rw [printMembers_cons] at hsteps ⊢
      simp only [List.length_append, List.length_cons] at hsteps
      obtain ⟨less, rfl⟩ : ∃ less, steps = less + 1 := ⟨steps - 1, by omega⟩
      have hless : (printMembers depth (next :: members)).length ≤ less := by omega
      have hmore := ih (fun member hmem => hmembers member (List.mem_cons_of_mem _ hmem)) nofun
        hless
      simp only [List.append_assoc, List.cons_append]
      refine readMembers_more (readsMember_print hmember (by omega) _) rfl ?_
      rw [← readMembers_skipBlanks, skipBlanks_newline, readMembers_skipBlanks]
      exact hmore

/-- Every printed value is read back. -/
theorem readValue_printValue (h : data.Plain) : ReadBack data := by
  induction h with
  | null =>
    intro depth steps rest _
    rw [printValue]
    rfl
  | bool on =>
    intro depth steps rest _
    cases on with
    | true =>
      rw [printValue]
      rfl
    | false =>
      rw [printValue]
      rfl
  | text content =>
    intro depth steps rest _
    obtain ⟨literal, hliteral, hread⟩ := readText_quote? content rest
    have hquote : readValue (steps + 1) ('"' :: literal) = some (.text content, rest) := by
      change (readText literal >>= fun read => some (Data.text read.1, read.2)) = _
      rw [hread]
      rfl
    rw [printValue, hliteral, hquote]
  | @list items hplain ih =>
    intro depth steps rest hsteps
    cases items with
    | nil =>
      rw [printValue]
      rfl
    | cons item items =>
      rw [printValue] at hsteps ⊢
      simp only [List.length_append, List.length_cons] at hsteps
      obtain ⟨less, rfl⟩ : ∃ less, steps = less + 2 := ⟨steps - 2, by omega⟩
      have hless : (printItems (depth + 1) (item :: items)).length ≤ less := by omega
      have hitems := readItems_printItems ih nofun hless depth rest
      obtain ⟨c, more, hfirst, hne⟩ := exists_printItems (hplain item List.mem_cons_self) items
        (depth + 1) ('\n' :: (indent depth ++ ']' :: rest))
      simp only [List.append_assoc, List.cons_append, List.nil_append]
      refine readValue_list hfirst hne ?_
      rw [← readItems_skipBlanks, skipBlanks_newline, readItems_skipBlanks]
      exact hitems
  | @record members _ ih =>
    intro depth steps rest hsteps
    cases members with
    | nil =>
      rw [printValue]
      rfl
    | cons member members =>
      rw [printValue] at hsteps ⊢
      simp only [List.length_append, List.length_cons] at hsteps
      obtain ⟨less, rfl⟩ : ∃ less, steps = less + 2 := ⟨steps - 2, by omega⟩
      have hless : (printMembers (depth + 1) (member :: members)).length ≤ less := by omega
      have hmembers := readMembers_printMembers ih nofun hless depth rest
      obtain ⟨more, hfirst⟩ := exists_printMembers member members (depth + 1)
        ('\n' :: (indent depth ++ '\x7d' :: rest))
      simp only [List.append_assoc, List.cons_append, List.nil_append]
      refine readValue_record hfirst ?_
      rw [← readMembers_skipBlanks, skipBlanks_newline, readMembers_skipBlanks]
      exact hmembers

/-! ### Documents -/

/-- A document is read back, also with blanks after it. -/
theorem read_print (h : data.Plain) {blanks : String} (hblanks : skipBlanks blanks.toList = []) :
    read (print data ++ blanks) = some data := by
  have hdocument : (print data ++ blanks).toList = printValue 0 data ++ blanks.toList := by
    rw [String.toList_append, print, String.toList_ofList]
  have hvalue := readValue_printValue h 0
    (2 * (printValue 0 data ++ blanks.toList).length + 1) blanks.toList
    (by rw [List.length_append]; omega)
  rw [read]
  simp only [hdocument, hvalue, if_pos hblanks]

/-- A document does not end with a line feed. -/
theorem getLast?_print (h : data.Plain) : (print data).toList.getLast? ≠ some '\n' := by
  obtain ⟨front, c, hprint, hne⟩ := exists_printValue_last h 0
  rw [print, String.toList_ofList, hprint, List.getLast?_concat]
  intro heq
  exact hne (Option.some.inj heq)

end Json

end ReleaseFlags
