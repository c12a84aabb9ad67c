import ReleaseFlags.Proofs.Lines
import ReleaseFlags.Proofs.NormalPath
import ReleaseFlags.Proofs.Registry.Steps

/-!
# The files of a config directory

All files that are read from a config directory are below it: each one has the path of the directory
joined with an inner segment (`Reads.exists_inner`).  What outputs show for such a file is the
directory as it was given, joined with the same segment, wherever the directory is read
(`displayPath_join`): taking the directory off the front of the path undoes the join, also where the
join keeps the segment alone.
-/

namespace ReleaseFlags

namespace Path

variable {p q : Path} {segment other : String} {c : Char} {front text : List Char}

/-- The segment leads to something inside a directory that is not hidden: it has no backslash and no
slash at the end, and its first component is there and does not start with a dot. -/
structure IsInner (segment : String) : Prop where
  backslash_notMem : '\\' ∉ segment.toList
  slash_not_last : segment.toList.getLast? ≠ some '/'
  first : ∃ c rest, segment.toList = c :: rest ∧ c ≠ '/' ∧ c ≠ '.'

lemma IsInner.endsInName (h : IsInner segment) : EndsInName segment := by
  obtain ⟨c, rest, heq, -⟩ := h.first
  have hne : segment.toList ≠ [] := heq ▸ List.cons_ne_nil c rest
  exact endsInName_of_getLast? hne h.slash_not_last h.backslash_notMem

/-- A name below an inner segment. -/
lemma IsInner.append (h : IsInner segment) (hends : EndsInName other)
    (hother : '\\' ∉ other.toList) : IsInner (segment ++ "/" ++ other) := by
  obtain ⟨front, last, hlast, hslash, -⟩ := hends
  obtain ⟨c, rest, hfirst, hc⟩ := h.first
  have htext : (segment ++ "/" ++ other).toList = segment.toList ++ '/' :: other.toList := by simp
  refine ⟨?_, ?_, c, rest ++ '/' :: other.toList, ?_, hc⟩
  · simp [htext, h.backslash_notMem, hother]
  · rw [htext, hlast, List.getLast?_append_cons, ← List.cons_append, List.getLast?_concat]
    simpa using hslash
  · rw [htext, hfirst, List.cons_append]

lemma IsNormal.forward_base (h : p.IsNormal) : forward p.base = p.base := by
  refine forward_of_notMem fun hmem => ?_
  unfold base at hmem
  split at hmem
  · cases hmem
  · split at hmem
    · exact h.backslash_notMem hmem
    · rcases List.mem_append.mp hmem with hmem | hmem
      · exact h.backslash_notMem hmem
      · exact absurd hmem (by decide)

/-- The path of an inner segment is written as the directory and the segment. -/
lemma toList_join_inner (hp : p.IsNormal) (h : IsInner segment) :
    (p.join segment).text.toList = p.base ++ segment.toList := by
  rw [toList_join h.endsInName, hp.forward_base, forward_of_notMem h.backslash_notMem]

/-- Taking the directory off the front undoes the join, slashes in front of the segment aside. -/
lemma dropWhile_stripFront_join (hp : p.IsNormal) (h : IsInner segment) :
    ((stripFront p.text.toList (p.join segment).text.toList).getD
      (p.join segment).text.toList).dropWhile (· = '/') = segment.toList := by
  obtain ⟨c, rest, hfirst, hslash, hdot⟩ := h.first
  have hkept : segment.toList.dropWhile (· = '/') = segment.toList := by
    rw [hfirst, List.dropWhile_cons_of_neg (by simpa using hslash)]
  rw [toList_join_inner hp h]
  unfold base
  split
  · next hhere =>
    rw [List.nil_append]
    rcases hhere with hempty | hhere
    · rw [hempty]
      exact hkept
    · -- the current directory is not taken off, since the segment does not begin with its dot
      have hnone : stripFront ['.'] segment.toList = none := by
        rw [hfirst, stripFront]
        exact if_neg (Ne.symm hdot)
      have htext : p.text.toList = ['.'] := by rw [hhere]; rfl
      rw [htext, hnone, Option.getD_none, hkept]
  · split
    · rw [stripFront_eq_some.mpr rfl, Option.getD_some, hkept]
    · rw [List.append_assoc, stripFront_eq_some.mpr rfl, Option.getD_some, List.singleton_append,
        List.dropWhile_cons_of_pos (by simp), hkept]

/-- A path that is written as a directory and more is that of an inner segment below it. -/
lemma exists_inner_of_base_append (hp : p.IsNormal) (hslash : c ≠ '/') (hdot : c ≠ '.')
    (hbackslash : c ≠ '\\') (text : List Char) : ∃ segment, IsInner segment ∧
      ofText (.ofList (p.base ++ c :: text)) = p.join segment := by
  have hforward : forward (c :: text) = c :: forward text := by
    simp [forward, hbackslash]
  let kept := c :: dropTrailingSlashes (forward text)
  have hkept : dropTrailingSlashes (c :: forward text) = kept :=
    dropTrailingSlashes_append_cons hslash [] (forward text)
  have hinner : IsInner (.ofList kept) := by
    refine ⟨?_, ?_, c, dropTrailingSlashes (forward text), String.toList_ofList, hslash, hdot⟩
    · rw [String.toList_ofList, ← hkept, ← hforward]
      exact fun hmem => backslash_notMem_forward _ (dropTrailingSlashes_subset _ hmem)
    · rw [String.toList_ofList, ← hkept]
      exact getLast?_dropTrailingSlashes _
  refine ⟨.ofList kept, hinner, ?_⟩
  have hnormalize : normalize (p.base ++ c :: text) = p.base ++ kept := by
    rw [normalize, forward_append, hp.forward_base, hforward,
      dropTrailingSlashes_append_cons hslash]
    cases p.base with
    | nil => rfl
    | cons d rest => rfl
  rw [Path.mk.injEq, ← String.toList_inj, toList_join_inner hp hinner, ofText,
    String.toList_ofList, String.toList_ofList, hnormalize, String.toList_ofList]

/-- Below the path of an inner segment everything comes after a slash. -/
lemma base_join (hp : p.IsNormal) (h : IsInner segment) :
    (p.join segment).base = p.base ++ segment.toList ++ ['/'] := by
  have htext := toList_join_inner hp h
  obtain ⟨c, rest, hfirst, -, hdot⟩ := h.first
  have hlong : ¬ ((p.join segment).text = "" ∨ (p.join segment).text = ".") := by
    rw [← String.toList_inj, ← String.toList_inj, htext, hfirst]
    rintro (hempty | hhere)
    · simp at hempty
    · -- a single dot would be the segment itself
      rcases List.append_eq_singleton_iff.mp hhere with ⟨-, hdot'⟩ | ⟨-, hnil⟩
      · exact hdot (List.cons.inj hdot').1
      · cases hnil
  have hlast : (p.join segment).text.toList.getLast? ≠ some '/' := by
    rw [htext, hfirst, List.getLast?_append_cons, ← hfirst]
    exact h.slash_not_last
  rw [base, if_neg hlong, if_neg hlast, htext]

/-- A segment below an inner one. -/
lemma join_join (hp : p.IsNormal) (h : IsInner segment) (hends : EndsInName other)
    (hother : '\\' ∉ other.toList) :
    (p.join segment).join other = p.join (segment ++ "/" ++ other) := by
  have hnormal := isNormal_join p segment
  rw [Path.mk.injEq, ← String.toList_inj, toList_join_inner hp (h.append hends hother),
    toList_join hends, hnormal.forward_base, forward_of_notMem hother, base_join hp h]
  simp

end Path

/-! ### Listed files -/

namespace FileTree

variable {tree : FileTree} {file : String}

lemma notMem_of_nameIn? {directory location name : String}
    (h : nameIn? directory location = some name) : name.toList ≠ [] ∧ '/' ∉ name.toList := by
  unfold nameIn? at h
  split at h
  · next chars _ =>
    split at h
    · cases h
    · next hname =>
      cases h
      rw [String.toList_ofList]
      exact not_or.mp hname
  · cases h

/-- The file is below the directory. -/
def Extends (directory file : String) : Prop :=
  ∃ rest, file.toList = directory.toList ++ '/' :: rest

/-- A file that a walk of a directory lists is an entry of the directory, or is listed by a walk of
one. -/
lemma exists_of_walkFrom_succ {depth : Nat} {ancestors : List (String × String)}
    {location directory : String} {files : List String}
    (h : tree.walkFrom (depth + 1) ancestors location directory = .ok files) (hfile : file ∈ files) :
    ∃ name, name.toList ≠ [] ∧ '/' ∉ name.toList ∧ (file = joinName directory name ∨
      ∃ around place below, tree.walkFrom depth around place (joinName directory name) = .ok below ∧
        file ∈ below) := by
  rw [walkFrom] at h
  obtain ⟨lists, hlists, h⟩ := bind_eq_ok.mp h
  cases h
  obtain ⟨list, hlist, hfile⟩ := List.mem_flatten.mp hfile
  obtain ⟨⟨name, node⟩, hchild, hentry⟩ := exists_of_mem_mapM hlists hlist
  obtain ⟨⟨place, _⟩, -, hplace⟩ := List.mem_filterMap.mp hchild
  obtain ⟨_, hname, hpair⟩ := Option.map_eq_some_iff.mp hplace
  cases hpair
  obtain ⟨hne, hslash⟩ := notMem_of_nameIn? hname
  refine ⟨name, hne, hslash, ?_⟩
  dsimp only at hentry
  split at hentry
  · cases hentry
    exact .inl (List.mem_singleton.mp hfile)
  · split at hentry
    · cases hentry
    · exact .inr ⟨_, _, _, hentry, hfile⟩
  · split at hentry
    · cases hentry
    · split at hentry
      · split at hentry
        · cases hentry
        · exact .inr ⟨_, _, _, hentry, hfile⟩
      · cases hentry
        exact .inl (List.mem_singleton.mp hfile)

/-- What a walk of a directory lists is below the directory. -/
lemma extends_of_walkFrom {depth : Nat} {ancestors : List (String × String)}
    {location directory : String} {files : List String}
    (h : tree.walkFrom depth ancestors location directory = .ok files)
    (hdirectory : directory.toList.getLast? ≠ some '/') (hfile : file ∈ files) :
    Extends directory file := by
  induction depth generalizing ancestors location directory files with
  | zero => cases h
  | succ depth ih =>
    obtain ⟨name, hne, hslash, hwalk⟩ := exists_of_walkFrom_succ h hfile
    have htext : (joinName directory name).toList = directory.toList ++ '/' :: name.toList := by
      rw [joinName, if_neg hdirectory]
      simp
    rcases hwalk with rfl | ⟨_, _, below, hbelow, hmem⟩
    · exact ⟨name.toList, htext⟩
    · have hlast : (joinName directory name).toList.getLast? ≠ some '/' := by
        rw [htext, List.getLast?_append_cons, List.getLast?_cons]
        obtain ⟨last, hlast⟩ := Option.ne_none_iff_exists'.mp (mt List.getLast?_eq_none_iff.mp hne)
        rw [hlast]
        rintro ⟨⟩
        exact hslash (List.mem_of_getLast? hlast)
      obtain ⟨rest, hrest⟩ := ih hbelow hlast hmem
      exact ⟨name.toList ++ '/' :: rest, by rw [hrest, htext]; simp⟩

/-- The files that are listed below a directory are written as the directory and more, and have the
extension. -/
lemma exists_of_filesBelow {directory path : Path} {extension : String} {files : List Path}
    (h : tree.filesBelow directory extension = .ok files)
    (hdirectory : directory.text.toList.getLast? ≠ some '/') (hpath : path ∈ files) :
    path.fileExtension = some extension ∧
      ∃ rest, path = .ofText (.ofList (directory.text.toList ++ '/' :: rest)) := by
  obtain ⟨hextension, location, found, file, hfound, hfile, rfl⟩ := exists_of_mem_filesBelow h hpath
  obtain ⟨rest, hrest⟩ := extends_of_walkFrom hfound hdirectory hfile
  exact ⟨hextension, rest, by rw [← hrest, String.ofList_toList]⟩

end FileTree

/-! ### Config directories -/

lemma DirectoryEntry.isInner_name (e : DirectoryEntry) : Path.IsInner e.name := by
  cases e with
  | map => exact ⟨by decide, by decide, 'r', "elease_config_map.toml".toList, by decide⟩
  | flagDeclarations => exact ⟨by decide, by decide, 'f', "lag_declarations".toList, by decide⟩
  | releaseConfigs => exact ⟨by decide, by decide, 'r', "elease_configs".toList, by decide⟩
  | flagValues => exact ⟨by decide, by decide, 'f', "lag_values".toList, by decide⟩

/-- A file below a config directory is shown as the same file below the directory as it was
given. -/
lemma ConfigDirectory.displayPath_join {directory : ConfigDirectory} {segment : String}
    (hnormal : directory.path.IsNormal) (h : Path.IsInner segment) :
    directory.displayPath (directory.path.join segment) =
      (directory.display.join segment).text := by
  rw [displayPath, Path.dropWhile_stripFront_join hnormal h, String.ofList_toList]

namespace Source

variable {source : Source} {name segment : String} {file : Path}

lemma path_directory (source : Source) (name : String) :
    (source.directory name).path = (Path.ofText name).under source.root := by
  rw [directory]

lemma isNormal_path (source : Source) (name : String) : (source.directory name).path.IsNormal := by
  rw [path_directory]
  exact Path.isNormal_under fun _ => Path.isNormal_ofText name

/-- Outputs show a file below a config directory by the name of the directory as it was given. -/
lemma displayPath_join (h : Path.IsInner segment) :
    (source.directory name).displayPath ((source.directory name).path.join segment) =
      ((Path.ofText name).join segment).text := by
  rw [ConfigDirectory.displayPath_join (source.isNormal_path name) h, directory]

/-- The files that are read from a config directory: its map, what is listed below its declarations
and its release files, and the values for the release config that a release file is named after. -/
inductive Reads (source : Source) (name : String) : Path → Prop
  | map : Reads source name ((source.directory name).entry .map)
  | declaration {files : List Path} {file : Path}
      (hfiles : source.inputFiles ((source.directory name).entry .flagDeclarations) = .ok files)
      (hfile : file ∈ files) : Reads source name file
  | release {files : List Path} {file : Path}
      (hfiles : source.inputFiles ((source.directory name).entry .releaseConfigs) = .ok files)
      (hfile : file ∈ files) : Reads source name file
  | value {releases files : List Path} {release file : Path} {config : String}
      (hreleases : source.inputFiles ((source.directory name).entry .releaseConfigs) = .ok releases)
      (hrelease : release ∈ releases) (hconfig : release.fileStem = some config)
      (hfiles : source.inputFiles (((source.directory name).entry .flagValues).join config) =
        .ok files)
      (hfile : file ∈ files) : Reads source name file

/-- What is listed below an inner segment of a directory is below the directory. -/
lemma exists_inner_of_inputFiles {p : Path} {files : List Path} (hnormal : p.IsNormal)
    (h : Path.IsInner segment) (hfiles : source.inputFiles (p.join segment) = .ok files)
    (hfile : file ∈ files) : ∃ inner, Path.IsInner inner ∧ file = p.join inner := by
  obtain ⟨c, first, hfirst, hslash, hdot⟩ := h.first
  have htext := Path.toList_join_inner hnormal h
  have hlast : (p.join segment).text.toList.getLast? ≠ some '/' := by
    rw [htext, hfirst, List.getLast?_append_cons, ← hfirst]
    exact h.slash_not_last
  obtain ⟨-, rest, rfl⟩ :=
    FileTree.exists_of_filesBelow (mapError_eq_ok.mp hfiles) hlast hfile
  have hbackslash : c ≠ '\\' := by
    rintro rfl
    exact h.backslash_notMem (hfirst ▸ List.mem_cons_self)
  rw [htext, hfirst, List.append_assoc, List.cons_append]
  exact Path.exists_inner_of_base_append hnormal hslash hdot hbackslash _

/-- The stem of a listed file is a name. -/
lemma endsInName_of_fileStem {directory : Path} {files : List Path} {stem : String}
    (hfiles : source.inputFiles directory = .ok files) (hfile : file ∈ files)
    (hstem : file.fileStem = some stem) : Path.EndsInName stem ∧ '\\' ∉ stem.toList := by
  have hflat := Path.flat_of_fileStem hstem (backslash_notMem_of_inputFiles hfiles hfile)
  exact ⟨hflat.endsInName (Path.subset_of_fileStem hstem).1, hflat.backslash_notMem⟩

/-- The directory with the values for a release config is an inner one. -/
lemma join_flagValues {directory : ConfigDirectory} (hnormal : directory.path.IsNormal)
    (hconfig : Path.EndsInName segment ∧ '\\' ∉ segment.toList) :
    Path.IsInner ("flag_values/" ++ segment) ∧
      (directory.entry .flagValues).join segment =
        directory.path.join ("flag_values/" ++ segment) :=
  ⟨DirectoryEntry.flagValues.isInner_name.append hconfig.1 hconfig.2,
    Path.join_join hnormal DirectoryEntry.flagValues.isInner_name hconfig.1 hconfig.2⟩

/-- Every file that is read from a config directory is below it. -/
theorem Reads.exists_inner (h : source.Reads name file) :
    ∃ segment, Path.IsInner segment ∧ file = (source.directory name).path.join segment := by
  cases h with
  | map => exact ⟨_, DirectoryEntry.map.isInner_name, rfl⟩
  | declaration hfiles hfile =>
    exact exists_inner_of_inputFiles (source.isNormal_path name)
      DirectoryEntry.flagDeclarations.isInner_name hfiles hfile
  | release hfiles hfile =>
    exact exists_inner_of_inputFiles (source.isNormal_path name)
      DirectoryEntry.releaseConfigs.isInner_name hfiles hfile
  | value hreleases hrelease hconfig hfiles hfile =>
    obtain ⟨hinner, hjoin⟩ := join_flagValues (source.isNormal_path name)
      (endsInName_of_fileStem hreleases hrelease hconfig)
    exact exists_inner_of_inputFiles (source.isNormal_path name) hinner (hjoin ▸ hfiles) hfile

end Source

end ReleaseFlags
