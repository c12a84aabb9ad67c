import ReleaseFlags.Proofs.InputFiles
import ReleaseFlags.Proofs.Registry.Names

/-!
# Where config directories are read

A scan refuses a config directory whose name was given before, in whatever way it is spelt, and
reads each one from the place where its name leads from the root of the source.  Relative names that
differ lead to different places (`Path.eq_of_join_eq_of_relative`), and so do absolute ones.  But a
relative name and an absolute one may lead to one place, and then the directory is read twice
(`Source.readsApart_of_scan`).
-/

namespace ReleaseFlags

namespace Path

variable {p q : Path}

/-! ### Relative names -/

/-- A relative path that is normal is empty, or ends in a name. -/
lemma IsNormal.eq_empty_or_endsInName (h : p.IsNormal) (hrelative : p.isAbsolute = false) :
    p.text = "" ∨ EndsInName p.text := by
  by_cases hnil : p.text.toList = []
  · exact .inl (by simpa using hnil)
  · refine .inr (endsInName_of_getLast? hnil (fun hlast => ?_) h.backslash_notMem)
    rw [isAbsolute, h.eq_root hlast] at hrelative
    cases hrelative

lemma length_normalize_le (text : List Char) : (normalize text).length ≤ text.length := by
  have hforward : (forward text).length = text.length := List.length_map _
  unfold normalize
  split
  · rw [List.length_take, hforward]
    exact Nat.min_le_right _ _
  · next kept hkept =>
    rw [← hforward, dropTrailingSlashes_eq_rdropWhile]
    exact (List.rdropWhile_prefix _ _).length_le

/-- Joining the empty text adds nothing to what stands before a segment. -/
lemma length_join_empty_le (p : Path) : (p.join "").text.toList.length ≤ p.base.length := by
  have hjoin : (p.join "").text.toList = normalize p.base := by
    unfold join base
    dsimp only
    split
    · rfl
    · split
      · rw [ofText, String.toList_ofList, String.toList_append]
        exact congrArg normalize (List.append_nil _)
      · rw [ofText, String.toList_ofList, String.toList_append, String.toList_append]
        exact congrArg normalize (List.append_nil _)
  rw [hjoin]
  exact length_normalize_le _

/-- What ends in a name below a directory is not the directory itself. -/
lemma join_ne_join_empty {segment : String} (h : EndsInName segment) (p : Path) :
    p.join segment ≠ p.join "" := by
  intro heq
  have hlength := length_join_empty_le p
  rw [← heq, toList_join h] at hlength
  obtain ⟨front, c, hsegment, -⟩ := h
  simp only [forward, hsegment, List.length_append, List.length_map, List.length_singleton]
    at hlength
  omega

/-- Different relative names lead to different places below a directory. -/
lemma eq_of_join_eq_of_relative (hp : p.IsNormal) (hq : q.IsNormal) (hp' : p.isAbsolute = false)
    (hq' : q.isAbsolute = false) {root : Path} (h : root.join p.text = root.join q.text) :
    p = q := by
  rw [Path.mk.injEq]
  rcases hp.eq_empty_or_endsInName hp' with hempty | hends
  · rcases hq.eq_empty_or_endsInName hq' with hempty' | hends'
    · rw [hempty, hempty']
    · rw [hempty] at h
      exact absurd h.symm (join_ne_join_empty hends' root)
  · rcases hq.eq_empty_or_endsInName hq' with hempty' | hends'
    · rw [hempty'] at h
      exact absurd h (join_ne_join_empty hends root)
    · have hforward := forward_eq_of_join_eq hends hends' h
      rwa [forward_of_notMem hp.backslash_notMem, forward_of_notMem hq.backslash_notMem,
        String.toList_inj] at hforward

/-- The other path is the directory or lies below it: all that is below the other path is written
as the directory and more. -/
def Encloses (p q : Path) : Prop := p.base <+: q.base

end Path

namespace Source

variable {source : Source} {name other : String} {directories : List String} {registry : Registry}

/-! ### Two names for one place -/

/-- The first name is relative, and the second one is the absolute name of the place where the first
one leads. -/
structure Respells (source : Source) (name other : String) : Prop where
  relative : (Path.ofText name).isAbsolute = false
  absolute : (Path.ofText other).isAbsolute = true
  join_eq : source.root.join (Path.ofText name).text = Path.ofText other

instance (source : Source) (name other : String) : Decidable (source.Respells name other) :=
  decidable_of_iff (_ ∧ _ ∧ _) ⟨fun h => ⟨h.1, h.2.1, h.2.2⟩, fun h => ⟨h.1, h.2, h.3⟩⟩

/-- Names that are told apart lead to one place exactly if one of them is the absolute name of the
place where the other one leads. -/
lemma path_eq_iff (hne : Path.ofText name ≠ Path.ofText other) :
    (source.directory name).path = (source.directory other).path ↔
      source.Respells name other ∨ source.Respells other name := by
  rw [path_directory, path_directory, Path.under, Path.under]
  cases hname : (Path.ofText name).isAbsolute <;> cases hother : (Path.ofText other).isAbsolute
  · simp only [Bool.false_eq_true, if_false]
    constructor
    · intro heq
      exact absurd (Path.eq_of_join_eq_of_relative (Path.isNormal_ofText name)
        (Path.isNormal_ofText other) hname hother heq) hne
    · rintro (h | h)
      · cases hother.symm.trans h.absolute
      · cases hname.symm.trans h.absolute
  · simp only [Bool.false_eq_true, if_false, if_true]
    constructor
    · exact fun heq => .inl ⟨hname, hother, heq⟩
    · rintro (h | h)
      · exact h.join_eq
      · cases hother.symm.trans h.relative
  · simp only [Bool.false_eq_true, if_false, if_true]
    constructor
    · exact fun heq => .inr ⟨hother, hname, heq.symm⟩
    · rintro (h | h)
      · cases hname.symm.trans h.relative
      · exact h.join_eq.symm
  · simp only [if_true]
    constructor
    · exact fun heq => absurd heq hne
    · rintro (h | h)
      · cases hname.symm.trans h.relative
      · cases hother.symm.trans h.relative

/-- A file that is read from two config directories lies in one of them, and this one lies in the
other. -/
lemma encloses_of_reads {file : Path} (h : source.Reads name file) (h' : source.Reads other file) :
    (source.directory name).path.Encloses (source.directory other).path ∨
      (source.directory other).path.Encloses (source.directory name).path := by
  obtain ⟨segment, hinner, hfile⟩ := h.exists_inner
  obtain ⟨segment', hinner', hfile'⟩ := h'.exists_inner
  have htext := Path.toList_join_inner (source.isNormal_path name) hinner
  have htext' := Path.toList_join_inner (source.isNormal_path other) hinner'
  rw [← hfile, hfile'] at htext
  exact List.prefix_or_prefix_of_prefix ⟨_, htext.symm⟩ ⟨_, htext'.symm⟩

/-! ### Scanning -/

/-- The names of the directories in the registry are different ones. -/
lemma loadInvariant_nodup : LoadInvariant (fun registry => registry.directories.Nodup)
    fun _ registry => registry.directories.Nodup where
  aliases _ _ h := h
  directory _ _ _ h hnew := by
    refine List.nodup_append.mpr ⟨h, List.nodup_singleton _, fun name hname display hdisplay => ?_⟩
    rintro rfl
    exact hnew (List.mem_singleton.mp hdisplay ▸ hname)
  files _ _ _ h := h
  declare _ _ _ _ h _ _ := h
  contribute _ _ h _ _ := h
  maps _ _ _ h := h
  stop _ _ h := h

lemma directories_of_scan (h : source.scan directories = .ok registry) :
    registry.directories = directories.map fun name => (Path.ofText name).text := by
  obtain ⟨hmaps, hdirectories⟩ := Registry.maps_of_scan h
  rw [hdirectories]
  refine map_eq_of_mapM hmaps fun name _ loaded hloaded => ?_
  rw [(mapIn_eq_ok hloaded).1, directory]

lemma nodup_directories_of_scan (h : source.scan directories = .ok registry) :
    registry.directories.Nodup := by
  obtain ⟨loaded, hrun, hlink⟩ := exists_run_of_scan h
  obtain ⟨_, rfl⟩ := Registry.linkAliases_eq_ok hlink
  have hloaded : loaded.directories.Nodup := loadInvariant_nodup.of_run List.nodup_nil hrun
  exact hloaded

/-- Where the config directories of a scan are read. -/
structure ReadsApart (source : Source) (directories : List String) (registry : Registry) :
    Prop where
  /-- The place of a name in the list is the index of the directory. -/
  directories_eq : registry.directories = directories.map fun name => (Path.ofText name).text
  /-- Two directories are read from one place only if one of them is named by this place. -/
  path_eq_iff : directories.Pairwise fun name other =>
    (source.directory name).path = (source.directory other).path ↔
      source.Respells name other ∨ source.Respells other name
  /-- All directories are read from different places if all names are relative or all absolute. -/
  nodup_paths : ∀ absolute, (∀ name ∈ directories, (Path.ofText name).isAbsolute = absolute) →
    (directories.map fun name => (source.directory name).path).Nodup
  /-- No file is read from two directories, unless one of them lies in the other. -/
  encloses : directories.Pairwise fun name other => ∀ file,
    source.Reads name file → source.Reads other file →
      (source.directory name).path.Encloses (source.directory other).path ∨
        (source.directory other).path.Encloses (source.directory name).path

/-- **Directories that are read twice.**  A scan that succeeds reads its config directories from
different places, but for those that are named once relative to the root and once absolutely. -/
theorem readsApart_of_scan (h : source.scan directories = .ok registry) :
    source.ReadsApart directories registry := by
  have hdirectories := directories_of_scan h
  have hnodup := nodup_directories_of_scan h
  rw [hdirectories] at hnodup
  have hne : directories.Pairwise fun name other => Path.ofText name ≠ Path.ofText other :=
    (List.pairwise_map.mp hnodup).imp fun hne heq => hne (congrArg Path.text heq)
  refine ⟨hdirectories, hne.imp path_eq_iff, fun absolute hall => ?_,
    List.pairwise_of_forall fun _ _ _ => encloses_of_reads⟩
  refine List.pairwise_map.mpr (hne.imp_of_mem fun {name other} hname hother hne heq => ?_)
  have hsame := (hall name hname).trans (hall other hother).symm
  rcases (path_eq_iff hne).mp heq with hspelt | hspelt
  · rw [hspelt.relative, hspelt.absolute] at hsame
    cases hsame
  · rw [hspelt.relative, hspelt.absolute] at hsame
    cases hsame

/-- The tree of two directories, with the top as the root. -/
def pairBelowTop : Source := ⟨FileTree.pair, ⟨"/"⟩⟩

theorem readsApart_of_scan_pair : ∃ registry, pairBelowTop.scan ["d\\", "/e"] = .ok registry ∧
    pairBelowTop.ReadsApart ["d\\", "/e"] registry := by
  have hok : (pairBelowTop.scan ["d\\", "/e"]).isOk = true := by decide +kernel
  cases hscan : pairBelowTop.scan ["d\\", "/e"] with
  | error e =>
    rw [hscan] at hok
    cases hok
  | ok registry => exact ⟨registry, rfl, readsApart_of_scan hscan⟩

/-- A config directory with one release file, at the top of the tree. -/
def soloTree : FileTree where
  nodes := ⟨[
    ("/d", .directory),
    ("/d/release_config_map.toml", .file (some "")),
    ("/d/release_configs", .directory),
    ("/d/release_configs/a.toml", .file (some "name='a'"))], by
      unfold Increasing
      decide +kernel⟩
  workingDirectory := ""

def solo : Source := ⟨soloTree, ⟨"/"⟩⟩

/-- A directory that is named once relative to the root and once absolutely is read twice from the
same place, and its release file contributes to the release config at both indices. -/
theorem directory_read_twice : ∃ registry, solo.scan ["d", "/d"] = .ok registry ∧
    (solo.directory "d").path = (solo.directory "/d").path ∧
    solo.Reads "d" ⟨"/d/release_configs/a.toml"⟩ ∧
    solo.Reads "/d" ⟨"/d/release_configs/a.toml"⟩ ∧
    (registry.contributionsTo "a").map Contribution.index = [0, 1] := by
  have hshown : (solo.scan ["d", "/d"]).toOption.any (fun registry =>
      (registry.contributionsTo "a").map Contribution.index = [0, 1]) = true := by decide +kernel
  have hplaces : (solo.directory "d").path = (solo.directory "/d").path := by decide
  have hfiles : solo.inputFiles ((solo.directory "d").entry .releaseConfigs) =
      .ok [⟨"/d/release_configs/a.toml"⟩] := by decide +kernel
  have hfiles' := hfiles
  rw [ConfigDirectory.entry, hplaces] at hfiles'
  obtain ⟨registry, hscan, hindices⟩ := exists_of_toOption hshown
  exact ⟨registry, hscan, hplaces, .release hfiles List.mem_cons_self,
    .release hfiles' List.mem_cons_self, of_decide_eq_true hindices⟩

end Source

end ReleaseFlags
