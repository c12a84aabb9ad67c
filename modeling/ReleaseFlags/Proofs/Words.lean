import Mathlib.Tactic.Lemma
import ReleaseFlags.Text.Words

/-!
# Lines of words

Lists of words are kept in lines of text, and lines are put one behind the other.  The words of
the resulting line are those of the parts (`ofLine_append`, `ofLine_toLine`), so a line can stand
for the list of its words; `distinct` drops every word that occurred before.  What is dropped from a
part early would be dropped from the whole (`distinct_distinct_append`, `distinct_append_distinct`),
so that a line may be replaced by its entries before it becomes a part (`deduplicates_lines`).
-/

namespace ReleaseFlags

variable {α : Type} [DecidableEq α]

/-! ### Distinct elements -/

lemma distinct_filter (keep : α → Bool) (l : List α) :
    distinct (l.filter keep) = (distinct l).filter keep := by
  induction l with
  | nil => rfl
  | cons a rest ih =>
    rw [List.filter_cons, distinct, List.filter_cons]
    split
    · rw [distinct, ih, List.filter_filter, List.filter_filter]
      simp only [Bool.and_comm]
    · next hkeep =>
      -- the filter drops what is equal to `a` anyway
      rw [ih, List.filter_filter]
      refine List.filter_congr fun b _ => ?_
      by_cases heq : b = a <;> simp [heq, hkeep]

/-- Of equal elements the first one is kept. -/
lemma distinct_eq_eraseDups (l : List α) : distinct l = l.eraseDups := by
  induction hlength : l.length using Nat.strongRecOn generalizing l with
  | _ length ih =>
    cases l with
    | nil => rfl
    | cons a rest =>
      have hless : (rest.filter fun b => !b == a).length < length := by
        rw [← hlength, List.length_cons]
        exact Nat.lt_succ_of_le (List.length_filter_le _ _)
      rw [distinct, List.eraseDups_cons, ← ih _ hless _ rfl, distinct_filter]
      refine congrArg _ (List.filter_congr fun b _ => ?_)
      by_cases heq : b = a <;> simp [heq]

lemma mem_distinct {a : α} {l : List α} : a ∈ distinct l ↔ a ∈ l := by
  rw [distinct_eq_eraseDups, List.mem_eraseDups]

/-- Elements that are dropped from the front of a list leave no trace in the whole. -/
lemma distinct_distinct_append (l more : List α) :
    distinct (distinct l ++ more) = distinct (l ++ more) := by
  induction l with
  | nil => rfl
  | cons a rest ih =>
    have hfilter : (distinct ((distinct rest).filter (· ≠ a) ++ more)).filter (· ≠ a) =
        (distinct (distinct rest ++ more)).filter (· ≠ a) := by
      simp only [← distinct_filter, List.filter_append, List.filter_filter, Bool.and_self]
    simp only [distinct, List.cons_append, hfilter, ih]

/-- Nor do those that are dropped from its end. -/
lemma distinct_append_distinct (l more : List α) :
    distinct (l ++ distinct more) = distinct (l ++ more) := by
  induction l with
  | nil =>
    have htwice := distinct_distinct_append more []
    rwa [List.append_nil, List.append_nil] at htwice
  | cons a rest ih => rw [List.cons_append, List.cons_append, distinct, distinct, ih]

/-- The list has the elements of another one, each of them once, in the order in which they occur
there for the first time. -/
structure ByFirstOccurrence (l entries : List α) : Prop where
  mem_iff : ∀ a, a ∈ entries ↔ a ∈ l
  increasing : entries.Pairwise fun a b => l.idxOf a < l.idxOf b

lemma ByFirstOccurrence.nodup {l entries : List α} (h : ByFirstOccurrence l entries) :
    entries.Nodup := by
  refine h.increasing.imp fun {a b} hless heq => ?_
  rw [heq] at hless
  exact Nat.lt_irrefl _ hless

lemma byFirstOccurrence_distinct (l : List α) : ByFirstOccurrence l (distinct l) := by
  refine ⟨fun _ => mem_distinct, ?_⟩
  induction l with
  | nil => exact List.Pairwise.nil
  | cons a rest ih =>
    have hne {b : α} (hb : b ∈ (distinct rest).filter (· ≠ a)) : b ≠ a :=
      of_decide_eq_true (List.mem_filter.mp hb).2
    -- the places of the other elements move back by one
    have hidxOf {b : α} (hb : b ≠ a) : (a :: rest).idxOf b = rest.idxOf b + 1 := by
      rw [List.idxOf_cons, beq_false_of_ne hb.symm, cond_false]
    refine List.pairwise_cons.mpr ⟨fun b hb => ?_, ?_⟩
    · rw [List.idxOf_cons_self, hidxOf (hne hb)]
      exact Nat.succ_pos _
    · refine (ih.filter _).imp_of_mem fun {b c} hb hc hless => ?_
      rw [hidxOf (hne hb), hidxOf (hne hc)]
      exact Nat.succ_lt_succ hless

/-- There is only one list of the distinct elements in this order. -/
lemma byFirstOccurrence_iff {l entries : List α} :
    ByFirstOccurrence l entries ↔ entries = distinct l := by
  have hdistinct := byFirstOccurrence_distinct l
  constructor
  · intro h
    have hperm : entries.Perm (distinct l) :=
      (List.perm_ext_iff_of_nodup h.nodup hdistinct.nodup).mpr fun a =>
        (h.mem_iff a).trans (hdistinct.mem_iff a).symm
    refine hperm.eq_of_pairwise (fun a b _ _ hab hba => ?_) h.increasing hdistinct.increasing
    exact absurd hba (Nat.lt_asymm hab)
  · rintro rfl
    exact hdistinct

/-! ### Words -/

lemma pieces_eq_splitOn (separator : Char) (text : List Char) :
    pieces separator text = text.splitOn separator := by
  induction text with
  | nil => rfl
  | cons c rest ih =>
    rw [pieces, List.splitOn_cons_eq_if_modifyHead, ih]
    by_cases heq : c = separator
    · simp [heq]
    · obtain ⟨piece, more, hpieces⟩ := List.exists_cons_of_ne_nil (rest.splitOn_ne_nil separator)
      simp [heq, hpieces]

/-- No piece holds the separator. -/
lemma not_mem_of_mem_pieces {separator : Char} {text piece : List Char}
    (h : piece ∈ pieces separator text) : separator ∉ piece := by
  induction text generalizing piece with
  | nil =>
    obtain rfl := List.mem_singleton.mp h
    exact List.not_mem_nil
  | cons c rest ih =>
    rw [pieces] at h
    split at h
    · rcases List.mem_cons.mp h with rfl | h
      · exact List.not_mem_nil
      · exact ih h
    · next hne =>
      split at h
      · obtain rfl := List.mem_singleton.mp h
        simpa using Ne.symm hne
      · next first more hrest =>
        rcases List.mem_cons.mp h with rfl | h
        · have hfirst := ih (hrest ▸ List.mem_cons_self)
          simp [Ne.symm hne, hfirst]
        · exact ih (hrest ▸ List.mem_cons_of_mem _ h)

namespace Words

@[simp] lemma ofLine_empty : ofLine "" = [] := rfl

/-- The words of two lines with a space between them. -/
lemma ofLine_append (first second : String) :
    ofLine (first ++ " " ++ second) = ofLine first ++ ofLine second := by
  have htext : (first ++ " " ++ second).toList = first.toList ++ ' ' :: second.toList := by
    simp
  simp only [ofLine, htext, pieces_eq_splitOn, List.splitOn_append_cons_self, List.filter_append,
    List.map_append]

/-- The words of a line that was put together from several ones. -/
lemma ofLine_toLine (lines : List String) : ofLine (toLine lines) = lines.flatMap ofLine := by
  induction lines with
  | nil => rfl
  | cons first rest ih =>
    rw [toLine] at ih ⊢
    cases rest with
    | nil => simp
    | cons second rest =>
      rw [String.intercalate_cons_cons, ofLine_append, ih, List.flatMap_cons (x := first)]

/-- A text without spaces is the only word in a line of its own. -/
lemma ofLine_of_notMem {word : String} (hne : word ≠ "") (h : ' ' ∉ word.toList) :
    ofLine word = [word] := by
  have hlist : word.toList ≠ [] := by simpa using hne
  rw [ofLine, pieces_eq_splitOn, List.splitOn_eq_singleton h]
  simp [hlist]

/-- A word of a line holds no space. -/
lemma notMem_of_mem_ofLine {word line : String} (h : word ∈ ofLine line) : ' ' ∉ word.toList := by
  obtain ⟨piece, hpiece, rfl⟩ := List.mem_map.mp h
  rw [String.toList_ofList]
  exact not_mem_of_mem_pieces (List.mem_filter.mp hpiece).1

/-- A word of a line is the only one in a line of its own. -/
lemma ofLine_of_mem {word line : String} (h : word ∈ ofLine line) : ofLine word = [word] := by
  refine ofLine_of_notMem ?_ (notMem_of_mem_ofLine h)
  obtain ⟨piece, hpiece, rfl⟩ := List.mem_map.mp h
  have hne : piece ≠ [] := by simpa using (List.mem_filter.mp hpiece).2
  simpa using hne

/-- Words that were read from lines are read back from the line that holds them. -/
lemma ofLine_toLine_of_words {words : List String} (h : ∀ word ∈ words, ofLine word = [word]) :
    ofLine (toLine words) = words := by
  rw [ofLine_toLine]
  induction words with
  | nil => rfl
  | cons first rest ih =>
    rw [List.flatMap_cons, h first List.mem_cons_self,
      ih fun word hword => h word (List.mem_cons_of_mem _ hword), List.singleton_append]

/-- The words of a line are the parts between its spaces that are not empty. -/
lemma exists_parts (line : String) : ∃ parts : List String, toLine parts = line ∧
    (∀ part ∈ parts, ' ' ∉ part.toList) ∧ parts.filter (· ≠ "") = ofLine line := by
  refine ⟨(pieces ' ' line.toList).map String.ofList, ?_, ?_, ?_⟩
  · have hlists : ((pieces ' ' line.toList).map String.ofList).map String.toList =
        line.toList.splitOn ' ' := by
      simp [pieces_eq_splitOn, Function.comp_def]
    rw [← String.toList_inj, toLine, String.toList_intercalate, hlists]
    exact List.intercalate_splitOn ' '
  · intro part hpart
    obtain ⟨piece, hpiece, rfl⟩ := List.mem_map.mp hpart
    rw [String.toList_ofList]
    exact not_mem_of_mem_pieces hpiece
  · rw [ofLine, List.filter_map]
    refine congrArg _ (List.filter_congr fun piece _ => ?_)
    have hempty : String.ofList piece = "" ↔ piece = [] := by
      rw [← String.toList_inj, String.toList_ofList]
      rfl
    simp [hempty]

end Words

/-! ### Entries of lines -/

/-- The entries of a line are read back from the line that holds them. -/
lemma ofLine_toLine_valueSetsOfLine (line : String) :
    Words.ofLine (Words.toLine (valueSetsOfLine line)) = valueSetsOfLine line := by
  refine Words.ofLine_toLine_of_words fun word hword => ?_
  exact Words.ofLine_of_mem (mem_distinct.mp hword)

lemma valueSetsOfLine_append (first second : String) :
    valueSetsOfLine (first ++ " " ++ second) =
      distinct (Words.ofLine first ++ Words.ofLine second) := by
  rw [valueSetsOfLine, Words.ofLine_append]

/-- What holds of the entries of a line, and of two lines that are put one behind the other. -/
structure Deduplicates (first second : String) : Prop where
  /-- The line is made of parts with one space between two of them, and its entries are the parts
  that are not empty, each of them once, by first occurrence. -/
  entries : ∃ parts : List String, Words.toLine parts = first ∧
    (∀ part ∈ parts, ' ' ∉ part.toList) ∧
    ∀ entries, ByFirstOccurrence (parts.filter (· ≠ "")) entries ↔ entries = valueSetsOfLine first
  front : valueSetsOfLine (Words.toLine (valueSetsOfLine first) ++ " " ++ second) =
    valueSetsOfLine (first ++ " " ++ second)
  back : valueSetsOfLine (first ++ " " ++ Words.toLine (valueSetsOfLine second)) =
    valueSetsOfLine (first ++ " " ++ second)
  again : valueSetsOfLine (Words.toLine (valueSetsOfLine first)) = valueSetsOfLine first

/-- **Lines can be deduplicated early.**  The entries of two lines that are put one behind the other
stay the same if either line is replaced by its own entries before. -/
theorem deduplicates_lines (first second : String) : Deduplicates first second where
  entries := by
    obtain ⟨parts, hline, hparts, hwords⟩ := Words.exists_parts first
    refine ⟨parts, hline, hparts, fun entries => ?_⟩
    rw [hwords, byFirstOccurrence_iff, valueSetsOfLine]
  front := by
    rw [valueSetsOfLine_append, valueSetsOfLine_append, ofLine_toLine_valueSetsOfLine]
    exact distinct_distinct_append _ _
  back := by
    rw [valueSetsOfLine_append, valueSetsOfLine_append, ofLine_toLine_valueSetsOfLine]
    exact distinct_append_distinct _ _
  again :=
    calc valueSetsOfLine (Words.toLine (valueSetsOfLine first))
        = distinct (valueSetsOfLine first) := congrArg distinct (ofLine_toLine_valueSetsOfLine first)
      _ = valueSetsOfLine first := distinct_append_distinct [] (Words.ofLine first)

end ReleaseFlags
