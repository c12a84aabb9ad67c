import Mathlib.Tactic.Lemma
import ReleaseFlags.Path

/-!
# Paths below a directory

The path of a segment below a directory is the text of the directory, a slash if there is none at
its end, and the segment (`toList_join`).  So segments that differ lead to different paths, if they
end in a name (`forward_eq_of_join_eq`), and for segments that begin or end differently this can be
seen without the rest of them (`Spans.ne`).  A segment without any slash is the file name of its
path (`fileName_join`).  A file name is its own stem, or the stem, a dot and the extension
(`fileName_cases`), and the stem has no slashes (`flat_of_fileStem`).
-/

namespace ReleaseFlags

namespace Path

variable {p : Path} {segment other name : String} {c : Char} {front after : List Char}

/-! ### The last occurrence of a character -/

lemma splitAtLast_of_notMem (h : c ∉ after) : splitAtLast c after = none := by
  induction after with
  | nil => rfl
  | cons x after ih =>
    obtain ⟨hne, hafter⟩ := not_or.mp (mt List.mem_cons.mpr h)
    rw [splitAtLast, ih hafter]
    exact if_neg (Ne.symm hne)

lemma splitAtLast_append (h : c ∉ after) (before : List Char) :
    splitAtLast c (before ++ c :: after) = some (before, after) := by
  induction before with
  | nil => simp [splitAtLast, splitAtLast_of_notMem h]
  | cons x before ih => rw [List.cons_append, splitAtLast, ih]

/-- A text is split where the character occurs last, or it does not occur. -/
lemma splitAtLast_cases (c : Char) (text : List Char) :
    c ∉ text ∧ splitAtLast c text = none ∨ ∃ before after, text = before ++ c :: after ∧
      c ∉ after ∧ splitAtLast c text = some (before, after) := by
  induction text with
  | nil => exact .inl ⟨List.not_mem_nil, rfl⟩
  | cons x rest ih =>
    rcases ih with ⟨hrest, -⟩ | ⟨before, after, rfl, hafter, -⟩
    · by_cases heq : c = x
      · subst heq
        exact .inr ⟨[], rest, rfl, hrest, splitAtLast_append hrest []⟩
      · have hmem : c ∉ x :: rest := by simp [heq, hrest]
        exact .inl ⟨hmem, splitAtLast_of_notMem hmem⟩
    · exact .inr ⟨x :: before, after, rfl, hafter, splitAtLast_append hafter (x :: before)⟩

/-! ### Segments -/

lemma forward_append (front back : List Char) :
    forward (front ++ back) = forward front ++ forward back := List.map_append

lemma forward_of_notMem {text : List Char} (h : '\\' ∉ text) : forward text = text := by
  have hkept : ∀ c ∈ text, (if c = '\\' then '/' else c) = c := by
    intro c hc
    refine if_neg ?_
    rintro rfl
    exact h hc
  rw [forward, List.map_congr_left hkept, List.map_id']

lemma backslash_notMem_forward (text : List Char) : '\\' ∉ forward text := by
  intro hmem
  obtain ⟨c, -, hc⟩ := List.mem_map.mp hmem
  split at hc
  · exact absurd hc (by decide)
  · next hne => exact hne hc

/-- The segment ends with a character of a name. -/
def EndsInName (segment : String) : Prop :=
  ∃ front c, segment.toList = front ++ [c] ∧ c ≠ '/' ∧ c ≠ '\\'

lemma EndsInName.append (h : EndsInName other) (segment : String) :
    EndsInName (segment ++ other) := by
  obtain ⟨front, c, heq, hc⟩ := h
  exact ⟨segment.toList ++ front, c, by rw [String.toList_append, heq, List.append_assoc], hc⟩

lemma endsInName_of_getLast? (hne : segment.toList ≠ [])
    (hslash : segment.toList.getLast? ≠ some '/') (hbackslash : '\\' ∉ segment.toList) :
    EndsInName segment := by
  have hlast := List.getLast?_eq_some_getLast hne
  refine ⟨_, segment.toList.getLast hne, (List.dropLast_concat_getLast hne).symm, ?_, ?_⟩
  · intro heq
    exact hslash (heq ▸ hlast)
  · intro heq
    exact hbackslash (heq ▸ List.getLast_mem hne)

/-- The text has no slashes of either kind. -/
structure Flat (segment : String) : Prop where
  slash_notMem : '/' ∉ segment.toList
  backslash_notMem : '\\' ∉ segment.toList

lemma Flat.forward_eq (h : Flat segment) : forward segment.toList = segment.toList :=
  forward_of_notMem h.backslash_notMem

lemma Flat.eq_of_forward_eq (h : Flat other)
    (heq : forward segment.toList = forward other.toList) : segment = other := by
  rw [h.forward_eq] at heq
  -- a backslash would be a slash in the other text
  have hbackslash : '\\' ∉ segment.toList := by
    intro hmem
    refine h.slash_notMem ?_
    rw [← heq]
    exact List.mem_map_of_mem hmem
  rwa [forward_of_notMem hbackslash, String.toList_inj] at heq

lemma Flat.endsInName (h : Flat segment) (hne : segment ≠ "") : EndsInName segment :=
  endsInName_of_getLast? (by simpa using hne)
    (fun hlast => h.slash_notMem (List.mem_of_getLast? hlast)) h.backslash_notMem

lemma Flat.append (h : Flat segment) (hother : Flat other) : Flat (segment ++ other) := by
  refine ⟨?_, ?_⟩
  · rw [String.toList_append, List.mem_append, not_or]
    exact ⟨h.slash_notMem, hother.slash_notMem⟩
  · rw [String.toList_append, List.mem_append, not_or]
    exact ⟨h.backslash_notMem, hother.backslash_notMem⟩

/-- The text is a single component of a path, and stands for no directory on the way. -/
structure IsComponent (segment : String) : Prop extends Flat segment where
  ne_empty : segment ≠ ""
  ne_here : segment ≠ "."
  ne_above : segment ≠ ".."

lemma IsComponent.endsInName (h : IsComponent segment) : EndsInName segment :=
  h.toFlat.endsInName h.ne_empty

/-! ### Joining -/

/-- What stands before a segment below the path: nothing, or a text that ends with a slash. -/
def base (p : Path) : List Char :=
  if p.text = "" ∨ p.text = "." then []
  else if p.text.toList.getLast? = some '/' then p.text.toList
  else p.text.toList ++ ['/']

lemma base_eq (p : Path) : p.base = [] ∨ ∃ front, p.base = front ++ ['/'] := by
  unfold base
  split
  · exact .inl rfl
  · split
    · next hlast => exact .inr (List.getLast?_eq_some_iff.mp hlast)
    · exact .inr ⟨_, rfl⟩

/-- Slashes are dropped from the first part of a text only if nothing else comes after it. -/
lemma dropTrailingSlashes_append (front after : List Char) :
    dropTrailingSlashes (front ++ after) =
      if dropTrailingSlashes after = [] then dropTrailingSlashes front
      else front ++ dropTrailingSlashes after := by
  simp only [dropTrailingSlashes, List.reverse_append, List.dropWhile_append, List.isEmpty_iff,
    List.reverse_eq_nil_iff]
  split
  · rfl
  · rw [List.reverse_append, List.reverse_reverse]

lemma dropTrailingSlashes_concat (h : c ≠ '/') (front : List Char) :
    dropTrailingSlashes (front ++ [c]) = front ++ [c] := by
  have hkept : dropTrailingSlashes [c] = [c] := by simp [dropTrailingSlashes, h]
  rw [dropTrailingSlashes_append, hkept, if_neg (List.cons_ne_nil c [])]

/-- What is dropped from the end of a text is behind its last other character. -/
lemma dropTrailingSlashes_append_cons (h : c ≠ '/') (front after : List Char) :
    dropTrailingSlashes (front ++ c :: after) = front ++ c :: dropTrailingSlashes after := by
  rw [List.append_cons, dropTrailingSlashes_append, dropTrailingSlashes_concat h]
  split
  · next hnil => rw [hnil]
  · rw [List.append_assoc, List.singleton_append]

lemma EndsInName.dropTrailingSlashes_append (h : EndsInName segment) (front : List Char) :
    dropTrailingSlashes (front ++ segment.toList) = front ++ segment.toList := by
  obtain ⟨kept, c, heq, hslash, -⟩ := h
  rw [heq, ← List.append_assoc, dropTrailingSlashes_concat hslash]

/-- Nothing is dropped from the end of a segment that ends in a name. -/
lemma toList_ofText_append (h : EndsInName segment) (front : String) :
    (ofText (front ++ String.ofList (forward segment.toList))).text.toList =
      forward front.toList ++ forward segment.toList := by
  obtain ⟨kept, c, heq, hslash, hbackslash⟩ := h
  have hlast : forward [c] = [c] := by
    simp [forward, hbackslash]
  have htext : forward (front ++ String.ofList (forward segment.toList)).toList =
      forward front.toList ++ forward kept ++ [c] := by
    rw [String.toList_append, String.toList_ofList, forward_append,
      forward_of_notMem (backslash_notMem_forward _), heq, forward_append, hlast,
      List.append_assoc]
  rw [ofText, String.toList_ofList, normalize, htext, dropTrailingSlashes_concat hslash, heq,
    forward_append, hlast, List.append_assoc]
  cases forward front.toList ++ (forward kept ++ [c]) <;> rfl

/-- The text of a path below a directory. -/
lemma toList_join (h : EndsInName segment) (p : Path) :
    (p.join segment).text.toList = forward p.base ++ forward segment.toList := by
  unfold join base
  dsimp only
  split
  · have htext := toList_ofText_append h ""
    rwa [String.empty_append] at htext
  · split
    · exact toList_ofText_append h p.text
    · rw [toList_ofText_append h, String.toList_append]
      rfl

/-- Segments that lead to the same path are the same, slashes aside. -/
lemma forward_eq_of_join_eq (h : EndsInName segment) (h' : EndsInName other)
    (heq : p.join segment = p.join other) : forward segment.toList = forward other.toList := by
  have htext := congrArg (fun p => p.text.toList) heq
  simp only [toList_join h, toList_join h'] at htext
  exact List.append_cancel_left htext

lemma eq_of_join_eq (h : IsComponent segment) (h' : IsComponent other)
    (heq : p.join segment = p.join other) : segment = other :=
  h'.eq_of_forward_eq (forward_eq_of_join_eq h.endsInName h'.endsInName heq)

/-- The path leads from the directory to a segment that begins and ends with these characters. -/
def Spans (directory : Path) (first last : Char) (p : Path) : Prop :=
  ∃ segment middle, segment.toList = first :: middle ++ [last] ∧ last ≠ '/' ∧ last ≠ '\\' ∧
    p = directory.join segment

/-- Segments that begin or end with different characters lead to different paths. -/
lemma Spans.ne {directory q : Path} {first last first' last' : Char}
    (h : Spans directory first last p) (h' : Spans directory first' last' q)
    (hne : forward [first, last] ≠ forward [first', last']) : p ≠ q := by
  obtain ⟨segment, middle, heq, hslash, hbackslash, rfl⟩ := h
  obtain ⟨other, middle', heq', hslash', hbackslash', rfl⟩ := h'
  intro hpath
  have hforward := forward_eq_of_join_eq ⟨_, _, heq, hslash, hbackslash⟩
    ⟨_, _, heq', hslash', hbackslash'⟩ hpath
  rw [heq, heq', forward_append, forward_append] at hforward
  obtain ⟨hbefore, hafter⟩ := List.append_inj' hforward rfl
  refine hne ?_
  calc forward [first, last]
      = (forward (first :: middle)).take 1 ++ forward [last] := rfl
    _ = (forward (first' :: middle')).take 1 ++ forward [last'] := by rw [hbefore, hafter]
    _ = forward [first', last'] := rfl

/-- The paths are different ones, and all of them lead to segments that begin and end with these
characters. -/
structure AllSpan (directory : Path) (first last : Char) (paths : List Path) : Prop where
  nodup : paths.Nodup
  spans : ∀ p ∈ paths, Spans directory first last p

lemma allSpan_nil (directory : Path) (first last : Char) : AllSpan directory first last [] :=
  ⟨List.Pairwise.nil, nofun⟩

lemma Spans.allSpan {directory : Path} {first last : Char} (h : Spans directory first last p) :
    AllSpan directory first last [p] :=
  ⟨List.pairwise_singleton _ p, fun _ hmem => List.mem_singleton.mp hmem ▸ h⟩

lemma fileNameChars_join (h : Flat segment) (hne : segment ≠ "") (p : Path) :
    (p.join segment).fileNameChars = segment.toList := by
  have hends := h.endsInName hne
  rw [fileNameChars, toList_join hends, h.forward_eq, hends.dropTrailingSlashes_append]
  rcases p.base_eq with hbase | ⟨front, hbase⟩
  · have hnone := splitAtLast_of_notMem h.slash_notMem
    simp [hbase, forward, hnone]
  · have hsplit := splitAtLast_append h.slash_notMem (forward front)
    have hslash : forward ['/'] = ['/'] := by decide
    rw [hbase, forward_append, hslash, List.append_assoc, List.singleton_append]
    simp [hsplit]

/-- A segment without slashes below a directory is the file name of its path. -/
lemma Flat.fileName_join (h : Flat segment) (hne : segment ≠ "") (p : Path) :
    (p.join segment).fileName = some segment := by
  have hlist : segment.toList ≠ [] := by simpa using hne
  rw [fileName, fileNameChars_join h hne, if_neg hlist, String.ofList_toList]

/-- The path is that of a name in the directory. -/
def IsNameIn (directory p : Path) : Prop :=
  ∃ segment, Flat segment ∧ segment ≠ "" ∧ p = directory.join segment

lemma isNameIn_join (h : Flat segment) (hother : Flat other) (hne : other ≠ "") (directory : Path) :
    directory.IsNameIn (directory.join (segment ++ other)) :=
  ⟨_, h.append hother, by simp [hne], rfl⟩

/-- A single component below a directory is the file name of its path. -/
theorem fileName_join (h : IsComponent segment) (p : Path) :
    (p.join segment).fileName = some segment :=
  h.toFlat.fileName_join h.ne_empty p

lemma fileExtension_join (h : IsComponent segment) (p : Path) {stem extension : String}
    (hsegment : segment = stem ++ "." ++ extension) (hstem : stem ≠ "")
    (hdot : '.' ∉ extension.toList) : (p.join segment).fileExtension = some extension := by
  have hchars : segment.toList = stem.toList ++ '.' :: extension.toList := by
    simp [hsegment]
  obtain ⟨first, rest, hfirst⟩ := List.exists_cons_of_ne_nil
    (show stem.toList ≠ [] by simpa using hstem)
  rw [fileExtension, fileNameChars_join h.toFlat h.ne_empty, hchars, splitAtLast_append hdot,
    hfirst]
  simp

/-! ### Stems and extensions -/

lemma dropTrailingSlashes_subset (text : List Char) : dropTrailingSlashes text ⊆ text := by
  intro c hc
  rw [dropTrailingSlashes, List.mem_reverse] at hc
  exact List.mem_reverse.mp ((List.dropWhile_sublist _).subset hc)

lemma backslash_notMem_ofText (text : String) : '\\' ∉ (ofText text).text.toList := by
  rw [ofText, String.toList_ofList, normalize]
  split
  · exact fun hmem => backslash_notMem_forward _ (List.mem_of_mem_take hmem)
  · next kept hkept =>
    exact fun hmem => backslash_notMem_forward _ (dropTrailingSlashes_subset _ hmem)

/-- The file name is what is behind the last slash. -/
lemma fileNameChars_spec (p : Path) :
    '/' ∉ p.fileNameChars ∧ p.fileNameChars ⊆ p.text.toList := by
  have hsubset := dropTrailingSlashes_subset p.text.toList
  rcases splitAtLast_cases '/' (dropTrailingSlashes p.text.toList) with
    ⟨hmem, hnone⟩ | ⟨before, after, htext, hmem, hsome⟩
  · rw [fileNameChars]
    simp only [hnone]
    exact ⟨hmem, hsubset⟩
  · rw [fileNameChars]
    simp only [hsome]
    refine ⟨hmem, fun c hc => hsubset ?_⟩
    rw [htext]
    simp [hc]

lemma fileNameChars_of_fileName (h : p.fileName = some name) :
    p.fileNameChars = name.toList ∧ name.toList ≠ [] := by
  unfold fileName at h
  split at h
  · cases h
  · next hne =>
    cases h
    rw [String.toList_ofList]
    exact ⟨rfl, hne⟩

/-- A name has no dot behind its first character, or it is the stem, a dot and the extension. -/
lemma fileName_cases (h : p.fileName = some name) :
    '.' ∉ name.toList.tail ∧ p.fileExtension = none ∧ p.fileStem = some name ∨
      ∃ stem extension, name = stem ++ "." ++ extension ∧ stem ≠ "" ∧ '.' ∉ extension.toList ∧
        p.fileExtension = some extension ∧ p.fileStem = some stem := by
  obtain ⟨hchars, hne⟩ := fileNameChars_of_fileName h
  rw [fileExtension, fileStem, hchars, if_neg hne]
  rcases splitAtLast_cases '.' name.toList with ⟨hdot, hnone⟩ | ⟨before, after, htext, hdot, hsome⟩
  · rw [hnone, String.ofList_toList]
    exact .inl ⟨fun hmem => hdot (List.mem_of_mem_tail hmem), rfl, rfl⟩
  · rw [hsome]
    cases before with
    | nil =>
      -- the last dot is the first character
      have htail : '.' ∉ name.toList.tail := by rwa [htext]
      exact .inl ⟨htail, rfl, congrArg some String.ofList_toList⟩
    | cons c before =>
      refine .inr ⟨.ofList (c :: before), .ofList after, ?_, ?_, ?_, rfl, rfl⟩
      · simp [← String.toList_inj, htext]
      · simp [← String.toList_inj]
      · rwa [String.toList_ofList]

/-- The stem is a part of the file name, and there is something in it. -/
lemma subset_of_fileStem (h : p.fileStem = some segment) :
    segment ≠ "" ∧ segment.toList ⊆ p.fileNameChars := by
  have hname : ∃ name, p.fileName = some name := by
    unfold fileStem at h
    split at h
    · cases h
    · next hne => exact ⟨_, if_neg hne⟩
  obtain ⟨name, hname⟩ := hname
  obtain ⟨hchars, hne⟩ := fileNameChars_of_fileName hname
  rw [hchars]
  rcases fileName_cases hname with ⟨-, -, hstem⟩ | ⟨stem, extension, rfl, hstem_ne, -, -, hstem⟩
  · cases hstem.symm.trans h
    exact ⟨by simpa using hne, List.Subset.refl _⟩
  · cases hstem.symm.trans h
    exact ⟨hstem_ne, by simp⟩

/-- The stem of a file name has no slashes. -/
lemma flat_of_fileStem (h : p.fileStem = some segment) (hp : '\\' ∉ p.text.toList) :
    Flat segment := by
  obtain ⟨hslash, hsubset⟩ := p.fileNameChars_spec
  obtain ⟨-, hstem⟩ := subset_of_fileStem h
  exact ⟨fun hmem => hslash (hstem hmem), fun hmem => hp (hsubset (hstem hmem))⟩

end Path

end ReleaseFlags
