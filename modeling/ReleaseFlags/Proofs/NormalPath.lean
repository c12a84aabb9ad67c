import Mathlib.Data.List.DropRight
import ReleaseFlags.Proofs.Path

/-!
# Normal paths

A normal path has no backslash, and no slash at its end unless it is the root.  These are the paths
that writing their text again does not change (`isNormal_iff`).  Texts and segments are brought into
this form, but the directory that holds a path is a part of its text, cut off at the last slash: if
another slash stands before this one, it is left at the end (`isNormal_of_parent`).  So of the paths
that are made of texts step by step, the normal ones are those whose last step leaves no slash
(`PathTerm.shapes_of_path?`).
-/

namespace ReleaseFlags

namespace Path

variable {p q root : Path} {text : List Char}

/-- There is no backslash in the path, and no slash at its end unless it is the root. -/
structure IsNormal (p : Path) : Prop where
  backslash_notMem : '\\' ∉ p.text.toList
  eq_root : p.text.toList.getLast? = some '/' → p.text = "/"

instance (p : Path) : Decidable p.IsNormal :=
  decidable_of_iff (_ ∧ _) ⟨fun h => ⟨h.1, h.2⟩, fun h => ⟨h.1, h.2⟩⟩

/-! ### Slashes at the end -/

lemma dropTrailingSlashes_eq_rdropWhile (text : List Char) :
    dropTrailingSlashes text = text.rdropWhile (· = '/') := rfl

lemma getLast?_dropTrailingSlashes (text : List Char) :
    (dropTrailingSlashes text).getLast? ≠ some '/' := by
  rw [dropTrailingSlashes_eq_rdropWhile]
  intro hlast
  have hne : text.rdropWhile (· = '/') ≠ [] := by
    intro hnil
    rw [hnil] at hlast
    cases hlast
  rw [List.getLast?_eq_some_getLast hne] at hlast
  exact List.rdropWhile_last_not (· = '/') text hne (decide_eq_true (Option.some.inj hlast))

lemma dropTrailingSlashes_of_getLast? (h : text.getLast? ≠ some '/') :
    dropTrailingSlashes text = text := by
  rw [dropTrailingSlashes_eq_rdropWhile, List.rdropWhile_eq_self_iff]
  intro hne hlast
  rw [List.getLast?_eq_some_getLast hne, of_decide_eq_true hlast] at h
  exact h rfl

/-- A text is what is left of it, and the slashes that are dropped from its end. -/
lemma exists_append_replicate (text : List Char) :
    ∃ slashes, text = dropTrailingSlashes text ++ List.replicate slashes '/' := by
  have hall : ∀ c ∈ text.rtakeWhile (· = '/'), c = '/' := fun _ hc =>
    of_decide_eq_true (List.mem_rtakeWhile_imp (p := (· = '/')) hc)
  refine ⟨(text.rtakeWhile (· = '/')).length, ?_⟩
  rw [← List.eq_replicate_of_mem hall, dropTrailingSlashes_eq_rdropWhile]
  exact List.rdropWhile_append_rtakeWhile.symm

/-- What has nothing but slashes begins with one. -/
lemma take_one_of_dropTrailingSlashes_eq_nil (h : dropTrailingSlashes text = []) :
    text.take 1 = [] ∨ text.take 1 = ['/'] := by
  rw [dropTrailingSlashes_eq_rdropWhile, List.rdropWhile_eq_nil_iff] at h
  cases text with
  | nil => exact .inl rfl
  | cons c text =>
    have hslash : c = '/' := by simpa using h c List.mem_cons_self
    exact .inr (by rw [hslash]; rfl)

/-! ### The paths of texts -/

lemma isNormal_ofText (text : String) : (ofText text).IsNormal := by
  refine ⟨backslash_notMem_ofText text, fun hlast => ?_⟩
  rw [← String.toList_inj, ofText, String.toList_ofList] at *
  unfold normalize at *
  split at hlast
  · next hnil =>
    rcases take_one_of_dropTrailingSlashes_eq_nil hnil with htake | htake
    · rw [htake] at hlast
      cases hlast
    · exact htake
  · exact absurd hlast (getLast?_dropTrailingSlashes _)

/-- A normal path is the path of its text. -/
lemma IsNormal.ofText_eq (h : p.IsNormal) : ofText p.text = p := by
  have htext : normalize p.text.toList = p.text.toList := by
    rw [normalize, forward_of_notMem h.backslash_notMem]
    by_cases hlast : p.text.toList.getLast? = some '/'
    · rw [h.eq_root hlast]
      rfl
    · rw [dropTrailingSlashes_of_getLast? hlast]
      cases hchars : p.text.toList with
      | nil => rfl
      | cons c text => rfl
  rw [ofText, htext, String.ofList_toList]

/-- The normal paths are those that writing their text again does not change. -/
lemma isNormal_iff : p.IsNormal ↔ ofText p.text = p :=
  ⟨IsNormal.ofText_eq, fun h => h ▸ isNormal_ofText p.text⟩

/-- Normal paths that are written alike are the same. -/
lemma IsNormal.eq_of_ofText_eq (h : p.IsNormal) (h' : q.IsNormal)
    (heq : ofText p.text = ofText q.text) : p = q := by
  rwa [h.ofText_eq, h'.ofText_eq] at heq

lemma isNormal_join (p : Path) (segment : String) : (p.join segment).IsNormal := by
  unfold join
  dsimp only
  split
  · exact isNormal_ofText _
  · split <;> exact isNormal_ofText _

lemma isNormal_under (h : p.isAbsolute = true → p.IsNormal) : (p.under root).IsNormal := by
  unfold under
  split
  · next habsolute => exact h habsolute
  · exact isNormal_join root p.text

/-! ### The directory above -/

/-- More than one slash stands before the name of the path, and not at its beginning. -/
def HasGap (p : Path) : Prop :=
  ∃ front name, dropTrailingSlashes p.text.toList = front ++ '/' :: '/' :: name ∧
    front ≠ [] ∧ '/' ∉ name

/-- The text of the directory that holds a path: the root, or what stands before the last slash. -/
lemma parent_cases (h : p.parent = some q) : ∃ before name,
    dropTrailingSlashes p.text.toList = before ++ '/' :: name ∧ '/' ∉ name ∧
      (before = [] ∧ q.text.toList = ['/'] ∨ before ≠ [] ∧ q.text.toList = before) := by
  unfold parent at h
  rcases splitAtLast_cases '/' (dropTrailingSlashes p.text.toList) with
    ⟨-, hnone⟩ | ⟨before, name, hkept, hname, hsome⟩
  · rw [hnone] at h
    cases h
  · rw [hsome] at h
    refine ⟨before, name, hkept, hname, ?_⟩
    cases before with
    | nil =>
      cases h
      exact .inl ⟨rfl, rfl⟩
    | cons c before =>
      cases h
      exact .inr ⟨List.cons_ne_nil c before, String.toList_ofList⟩

lemma backslash_notMem_of_parent (hp : '\\' ∉ p.text.toList) (h : p.parent = some q) :
    '\\' ∉ q.text.toList := by
  obtain ⟨before, name, hkept, -, ⟨-, hq⟩ | ⟨-, hq⟩⟩ := parent_cases h
  · rw [hq]
    decide
  · rw [hq]
    intro hmem
    refine hp (dropTrailingSlashes_subset _ ?_)
    rw [hkept]
    exact List.mem_append_left _ hmem

/-- The directory that holds a path is normal, unless more than one slash stands before the name of
the path. -/
lemma isNormal_of_parent (hp : '\\' ∉ p.text.toList) (h : p.parent = some q) :
    q.IsNormal ↔ ¬ p.HasGap := by
  have hbackslash := backslash_notMem_of_parent hp h
  obtain ⟨before, name, hkept, hname, hq⟩ := parent_cases h
  -- where the text is cut is told by the name
  have hcut {front other : List Char} (hother : '/' ∉ other)
      (heq : dropTrailingSlashes p.text.toList = front ++ '/' :: other) : front = before := by
    have hsplit := splitAtLast_append hother front
    rw [← heq, hkept, splitAtLast_append hname] at hsplit
    exact (Prod.mk.inj (Option.some.inj hsplit)).1.symm
  constructor
  · rintro hnormal ⟨front, other, heq, hne, hother⟩
    have hbefore : front ++ ['/'] = before := by
      refine hcut hother ?_
      rw [heq, List.append_assoc, List.singleton_append]
    rcases hq with ⟨hnil, -⟩ | ⟨-, hq⟩
    · rw [hnil] at hbefore
      exact absurd hbefore (by simp)
    · rw [← hbefore] at hq
      have hroot := hnormal.eq_root (by rw [hq, List.getLast?_append]; rfl)
      rw [hroot] at hq
      cases front with
      | nil => exact hne rfl
      | cons c front => exact absurd (congrArg List.length hq) (by simp)
  · intro hgap
    refine ⟨hbackslash, fun hlast => ?_⟩
    rcases hq with ⟨-, hq⟩ | ⟨-, hq⟩
    · rw [← String.toList_inj, hq]
      rfl
    · obtain ⟨front, hfront⟩ := List.getLast?_eq_some_iff.mp hlast
      cases front with
      | nil =>
        rw [← String.toList_inj, hfront]
        rfl
      | cons c front =>
        refine absurd ⟨c :: front, name, ?_, List.cons_ne_nil c front, hname⟩ hgap
        rw [hkept, ← hq, hfront, List.append_assoc, List.singleton_append]

end Path

/-! ### Paths made step by step -/

/-- How a path is made of texts. -/
inductive PathTerm where
  /-- The path of a text. -/
  | new (text : String)
  | join (base : PathTerm) (segment : String)
  | under (path root : PathTerm)
  | parent (path : PathTerm)
  deriving DecidableEq, Repr

namespace PathTerm

variable {e e' : PathTerm} {p q : Path}

/-- The path that is made, unless a directory is asked for where there is none. -/
def path? : PathTerm → Option Path
  | new text => some (.ofText text)
  | join base segment => do return (← base.path?).join segment
  | under path root => do return (← path.path?).under (← root.path?)
  | parent path => do (← path.path?).parent

/-- The last step leaves a slash at the end: it is the step to the directory that holds a path, and
more than one slash stands before the name of that path.  An absolute path is kept as it is. -/
def LeavesSlash : PathTerm → Prop
  | new _ => False
  | join _ _ => False
  | under path _ => path.LeavesSlash ∧ ∃ p, path.path? = some p ∧ p.isAbsolute = true
  | parent path => ∃ p, path.path? = some p ∧ p.HasGap

/-- Each step keeps out backslashes, and leaves a slash at the end only as it is said. -/
lemma normal_of_path? (h : e.path? = some p) :
    '\\' ∉ p.text.toList ∧ (p.IsNormal ↔ ¬ e.LeavesSlash) := by
  induction e generalizing p with
  | new text =>
    cases h
    have hnormal := Path.isNormal_ofText text
    exact ⟨hnormal.backslash_notMem, iff_of_true hnormal not_false⟩
  | join base segment ih =>
    obtain ⟨q, -, h⟩ := Option.bind_eq_some_iff.mp h
    cases h
    have hnormal := Path.isNormal_join q segment
    exact ⟨hnormal.backslash_notMem, iff_of_true hnormal not_false⟩
  | under path root ih _ =>
    obtain ⟨q, hq, h⟩ := Option.bind_eq_some_iff.mp h
    obtain ⟨directory, -, h⟩ := Option.bind_eq_some_iff.mp h
    cases h
    obtain ⟨hbackslash, hiff⟩ := ih hq
    by_cases habsolute : q.isAbsolute = true
    · have hkept : q.under directory = q := if_pos habsolute
      rw [hkept, hiff]
      refine ⟨hbackslash, not_congr ⟨fun hleaves => ⟨hleaves, q, hq, habsolute⟩, And.left⟩⟩
    · have hnormal : (q.under directory).IsNormal :=
        Path.isNormal_under fun habsolute' => absurd habsolute' habsolute
      refine ⟨hnormal.backslash_notMem, iff_of_true hnormal ?_⟩
      rintro ⟨-, other, hother, habsolute'⟩
      rw [hq] at hother
      cases hother
      exact habsolute habsolute'
  | parent path ih =>
    obtain ⟨q, hq, h⟩ := Option.bind_eq_some_iff.mp h
    obtain ⟨hbackslash, -⟩ := ih hq
    refine ⟨Path.backslash_notMem_of_parent hbackslash h, ?_⟩
    rw [Path.isNormal_of_parent hbackslash h]
    refine not_congr ⟨fun hgap => ⟨q, hq, hgap⟩, ?_⟩
    rintro ⟨other, hother, hgap⟩
    rw [hq] at hother
    cases hother
    exact hgap

/-- What holds of a path that was made step by step. -/
structure Shapes (e : PathTerm) (p : Path) : Prop where
  backslash_notMem : '\\' ∉ p.text.toList
  /-- The path is normal exactly if the last step leaves no slash. -/
  isNormal_iff : p.IsNormal ↔ ¬ e.LeavesSlash
  /-- The normal paths are those that writing their text again does not change. -/
  ofText_eq_iff : Path.ofText p.text = p ↔ ¬ e.LeavesSlash
  /-- If no slash is left, the path is told apart from others by what writing its text gives. -/
  eq_of_ofText_eq : ¬ e.LeavesSlash → ∀ e' q, PathTerm.path? e' = some q → ¬ e'.LeavesSlash →
    Path.ofText p.text = Path.ofText q.text → p = q

/-- **The paths that are normal.**  No path has a backslash, in whatever steps it was made, and it
is normal exactly if its last step leaves no slash at the end. -/
theorem shapes_of_path? (h : e.path? = some p) : e.Shapes p := by
  obtain ⟨hbackslash, hiff⟩ := normal_of_path? h
  refine ⟨hbackslash, hiff, ?_, fun hleaves e' q hq hleaves' heq => ?_⟩
  · rw [← Path.isNormal_iff, hiff]
  · obtain ⟨-, hiff'⟩ := normal_of_path? hq
    exact (hiff.mpr hleaves).eq_of_ofText_eq (hiff'.mpr hleaves') heq

/-- The directory of a file that is named with backslashes below a relative directory. -/
def nested : PathTerm := parent (join (under (new "d\\") (new "/top//")) "e\\f.toml/")

theorem shapes_nested : nested.path? = some ⟨"/top/d/e"⟩ ∧ nested.Shapes ⟨"/top/d/e"⟩ := by
  have hpath : nested.path? = some ⟨"/top/d/e"⟩ := by decide
  exact ⟨hpath, shapes_of_path? hpath⟩

/-- The directory that holds `a//b` ends with a slash.  It is written like the path `a`, and is
another path. -/
theorem slash_left_by_parent : ∃ p, (parent (new "a//b")).path? = some p ∧ ¬ p.IsNormal ∧
    p.text = "a/" ∧ Path.ofText p.text ≠ p ∧
      ∃ q, (new "a").path? = some q ∧ Path.ofText p.text = Path.ofText q.text ∧ p ≠ q :=
  ⟨⟨"a/"⟩, by decide, by decide, rfl, by decide, ⟨"a"⟩, by decide, by decide, by decide⟩

end PathTerm

end ReleaseFlags
