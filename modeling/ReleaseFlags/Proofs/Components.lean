import ReleaseFlags.Proofs.Lines
import ReleaseFlags.Proofs.NormalPath

/-!
# Components of paths

The components of a path are the pieces between its slashes, empty ones included.  A text is found
again from its components, so that they begin with those of another text exactly if the text is
this one, or goes on with a slash behind it (`components_prefix_iff`).  This is what comparing a path
with a directory looks for (`startsWithDir_iff`).  Slashes at the end of a path add empty components
behind all others, and do not matter to the directories above it
(`prefix_components_dropTrailingSlashes`), so that a directory above another one is above all that
is below the other (`comparesComponents`).
-/

namespace ReleaseFlags

namespace Path

variable {front text text' : List Char}

/-- The texts between the slashes of a path. -/
def components (text : List Char) : List (List Char) := pieces '/' text

lemma components_append (front rest : List Char) :
    components (front ++ '/' :: rest) = components front ++ components rest := by
  simp only [components, pieces_eq_splitOn, List.splitOn_append_cons_self]

/-- A text is put together from its components. -/
lemma intercalate_components (text : List Char) : ['/'].intercalate (components text) = text := by
  rw [components, pieces_eq_splitOn, List.intercalate_splitOn]

lemma components_injective (h : components text = components text') : text = text' := by
  rw [← intercalate_components text, h, intercalate_components]

/-- Texts without slashes are the components of the text that is put together from them. -/
lemma components_intercalate {parts : List (List Char)} (hne : parts ≠ [])
    (h : ∀ part ∈ parts, '/' ∉ part) : components (['/'].intercalate parts) = parts := by
  rw [components, pieces_eq_splitOn, List.splitOn_intercalate '/' h hne]

lemma components_prefix_iff :
    components front <+: components text ↔ text = front ∨ ∃ rest, text = front ++ '/' :: rest := by
  constructor
  · rintro ⟨more, hmore⟩
    by_cases hnil : more = []
    · rw [hnil, List.append_nil] at hmore
      exact .inl (components_injective hmore).symm
    · -- the components that are left are those of the rest of the text
      have hslash : ∀ part ∈ more, '/' ∉ part := by
        intro part hpart
        have hmem : part ∈ components text := hmore ▸ List.mem_append_right _ hpart
        exact not_mem_of_mem_pieces hmem
      refine .inr ⟨['/'].intercalate more, components_injective ?_⟩
      rw [components_append, components_intercalate hnil hslash, hmore]
  · rintro (rfl | ⟨rest, rfl⟩)
    · exact List.prefix_rfl
    · rw [components_append]
      exact List.prefix_append _ _

/-- A path starts with a directory exactly if its components start with those of the directory,
slashes at the end of the directory aside. -/
lemma startsWithDir_iff {p : Path} {dir : String} : p.startsWithDir dir = true ↔
    components (dropTrailingSlashes dir.toList) <+: components p.text.toList := by
  rw [components_prefix_iff, startsWithDir]
  cases hstrip : stripFront (dropTrailingSlashes dir.toList) p.text.toList with
  | none =>
    have hne (after : List Char) : p.text.toList ≠ dropTrailingSlashes dir.toList ++ after := by
      intro heq
      cases hstrip.symm.trans (stripFront_eq_some.mpr heq)
    refine iff_of_false Bool.false_ne_true ?_
    rintro (heq | ⟨rest, heq⟩)
    · exact hne [] (by rw [heq, List.append_nil])
    · exact hne _ heq
  | some after =>
    rw [stripFront_eq_some.mp hstrip]
    cases after with
    | nil => simp
    | cons c after => simp [eq_comm]

/-! ### Slashes at the end -/

lemma dropTrailingSlashes_prefix_components (text : List Char) :
    components (dropTrailingSlashes text) <+: components text := by
  obtain ⟨slashes, htext⟩ := exists_append_replicate text
  rw [components_prefix_iff]
  cases slashes with
  | zero => exact .inl (by rwa [List.replicate_zero, List.append_nil] at htext)
  | succ slashes => exact .inr ⟨_, by rwa [List.replicate_succ] at htext⟩

/-- What comes before the components of a text, and has no slash at its end, comes before those that
are left when the slashes at the end of the text are dropped. -/
lemma prefix_components_dropTrailingSlashes (hfront : front.getLast? ≠ some '/')
    (h : components front <+: components text) :
    components front <+: components (dropTrailingSlashes text) := by
  have hkept := dropTrailingSlashes_of_getLast? hfront
  rw [components_prefix_iff] at h ⊢
  rcases h with rfl | ⟨rest, rfl⟩
  · exact .inl hkept
  · have hslash : dropTrailingSlashes (front ++ ['/']) = front := by
      rw [dropTrailingSlashes_append, if_pos (by decide), hkept]
    rw [List.append_cons, dropTrailingSlashes_append, hslash]
    split
    · exact .inl rfl
    · exact .inr ⟨dropTrailingSlashes rest, by rw [List.append_assoc, List.singleton_append]⟩

/-- What comparing a path with directories tells. -/
structure ComparesComponents (p : Path) : Prop where
  /-- The path starts with a directory exactly if its components start with those of the directory,
  which is written without the slashes at its end. -/
  startsWithDir_iff : ∀ dir : String, ∃ kept slashes,
    dir.toList = kept ++ List.replicate slashes '/' ∧ kept.getLast? ≠ some '/' ∧
      (p.startsWithDir dir = true ↔ components kept <+: components p.text.toList)
  startsWithDir_self : p.startsWithDir p.text = true
  startsWithDir_trans : ∀ q r : Path, p.startsWithDir q.text = true →
    q.startsWithDir r.text = true → p.startsWithDir r.text = true

/-- **The directories above a path.**  A path starts with the directories whose components come
first among its own.  It starts with itself, and with all directories that one of them starts
with. -/
theorem comparesComponents (p : Path) : p.ComparesComponents where
  startsWithDir_iff dir := by
    obtain ⟨slashes, hdir⟩ := exists_append_replicate dir.toList
    exact ⟨_, slashes, hdir, getLast?_dropTrailingSlashes _, startsWithDir_iff⟩
  startsWithDir_self := startsWithDir_iff.mpr (dropTrailingSlashes_prefix_components p.text.toList)
  startsWithDir_trans q r h h' := by
    have habove := prefix_components_dropTrailingSlashes
      (getLast?_dropTrailingSlashes r.text.toList) (startsWithDir_iff.mp h')
    exact startsWithDir_iff.mpr (habove.trans (startsWithDir_iff.mp h))

end Path

/-- The text of an entry without the slashes at its end. -/
def trimmed (entry : String) : List Char := Path.dropTrailingSlashes entry.toList

/-- The directory is that of the entry, or it is below it. -/
def LiesUnder (directory entry : String) : Prop :=
  Path.components (trimmed entry) <+: Path.components (Path.ofText directory).text.toList

instance : DecidableRel LiesUnder := fun _ _ => inferInstanceAs (Decidable (_ <+: _))

lemma startsWithDir_ofText {directory entry : String} :
    (Path.ofText directory).startsWithDir entry = true ↔ LiesUnder directory entry :=
  Path.startsWithDir_iff

/-- What lies under an entry does not depend on the slashes at its end. -/
lemma liesUnder_congr {directory entry other : String} (h : trimmed entry = trimmed other) :
    LiesUnder directory entry ↔ LiesUnder directory other := by
  rw [LiesUnder, LiesUnder, h]

end ReleaseFlags
