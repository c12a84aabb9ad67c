import ReleaseFlags.Proofs.InputFiles

/-!
# Files and their names

A path is taken apart as it was joined: below a path that is neither empty nor the current directory,
a segment without slashes has the path as its directory (`Path.parent_join`) and is the file name.
The file name is its own stem, or the stem, a dot and the extension (`Path.TakenApart`).  So a listed
file has a stem exactly if its name is the stem with the extension of input files, and this decides
whether a scan takes what the file holds (`Source.ChecksName`).
-/

namespace ReleaseFlags

namespace Path

variable {p file : Path} {segment name stem extension : String}

/-! ### The directory above a segment -/

/-- Below a path that is neither empty nor the current directory, a segment comes after the slash of
the root, or after a slash behind the path. -/
lemma IsNormal.base_cases (h : p.IsNormal) (hempty : p ≠ ⟨""⟩) (hhere : p ≠ ⟨"."⟩) :
    p = ⟨"/"⟩ ∧ p.base = ['/'] ∨ p.text.toList ≠ [] ∧ p.base = p.text.toList ++ ['/'] := by
  have hbase : ¬ (p.text = "" ∨ p.text = ".") := by
    rintro (htext | htext)
    · exact hempty (congrArg Path.mk htext)
    · exact hhere (congrArg Path.mk htext)
  rw [base, if_neg hbase]
  split
  · next hlast =>
    have hroot : p = ⟨"/"⟩ := congrArg Path.mk (h.eq_root hlast)
    exact .inl ⟨hroot, by rw [hroot]; rfl⟩
  · exact .inr ⟨fun hnil => hbase (.inl (by rwa [← String.toList_inj])), rfl⟩

/-- The directory that holds a segment below a path is the path. -/
lemma parent_join (hp : p.IsNormal) (hempty : p ≠ ⟨""⟩) (hhere : p ≠ ⟨"."⟩)
    (h : Flat segment) (hne : segment ≠ "") : (p.join segment).parent = some p := by
  have hends := h.endsInName hne
  have hsplit := splitAtLast_append h.slash_notMem
  rw [parent, toList_join hends, hp.forward_base, h.forward_eq, hends.dropTrailingSlashes_append]
  rcases hp.base_cases hempty hhere with ⟨hroot, hbase⟩ | ⟨hnil, hbase⟩
  · have htext : splitAtLast '/' ('/' :: segment.toList) = some ([], segment.toList) := hsplit []
    rw [hbase, List.singleton_append, htext, hroot]
  · obtain ⟨c, front, hfront⟩ := List.exists_cons_of_ne_nil hnil
    rw [hbase, List.append_assoc, List.singleton_append, hsplit, hfront]
    simp [← hfront]

/-! ### The parts of a file name -/

/-- The file has this name, which is taken apart at its last dot. -/
structure TakenApart (file : Path) (name : String) : Prop where
  fileName_eq : file.fileName = some name
  /-- There is no extension exactly if no dot is behind the first character of the name. -/
  fileExtension_eq_none_iff : file.fileExtension = none ↔ '.' ∉ name.toList.tail
  fileStem_eq : file.fileExtension = none → file.fileStem = some name
  exists_stem : ∀ extension, file.fileExtension = some extension → '.' ∉ extension.toList ∧
    ∃ stem, file.fileStem = some stem ∧ stem ≠ "" ∧ name = stem ++ "." ++ extension

lemma takenApart_of_fileName (h : file.fileName = some name) : file.TakenApart name := by
  rcases fileName_cases h with ⟨hdot, hextension, hstem⟩ |
    ⟨stem, extension, rfl, hne, hdot, hextension, hstem⟩
  · refine ⟨h, iff_of_true hextension hdot, fun _ => hstem, fun extension hsome => ?_⟩
    cases hextension.symm.trans hsome
  · obtain ⟨c, rest, hfirst⟩ := List.exists_cons_of_ne_nil
      (show stem.toList ≠ [] by simpa using hne)
    have htail : '.' ∈ (stem ++ "." ++ extension).toList.tail := by simp [hfirst]
    refine ⟨h, iff_of_false (by simp [hextension]) (not_not_intro htail), fun hnone => ?_,
      fun other hsome => ?_⟩
    · cases hextension.symm.trans hnone
    · cases hextension.symm.trans hsome
      exact ⟨hdot, stem, hstem, hne, rfl⟩

/-- A file with an extension has a stem exactly if its name is the stem with this extension. -/
lemma fileStem_eq_some_iff (h : file.fileExtension = some extension) :
    file.fileStem = some stem ↔ file.fileName = some (stem ++ "." ++ extension) := by
  cases hname : file.fileName with
  | none =>
    -- without a name there is no extension
    have hchars : file.fileNameChars = [] := by simpa [fileName] using hname
    rw [fileExtension, hchars] at h
    cases h
  | some name =>
    obtain ⟨-, other, hstem, -, rfl⟩ := (takenApart_of_fileName hname).exists_stem extension h
    rw [hstem, Option.some_inj, Option.some_inj, ← String.toList_inj, ← String.toList_inj]
    simp

end Path

/-! ### Listed files -/

namespace Source

variable {source : Source} {place file : Path} {files : List Path}

/-- What a file holds is taken exactly if the file has the right name. -/
structure ChecksName (source : Source) (directory : ConfigDirectory) (file : Path) : Prop where
  /-- The file of a value is named after the flag. -/
  readValue_eq : ∀ value, source.load FlagValueFile.decode file = .ok value →
    source.readValue directory file =
      if file.fileName = some (value.name ++ "." ++ inputExtension) then
        .ok (value.assignment (directory.displayPath file))
      else .error (.valueFileName value.name (directory.displayPath file))
  /-- A release file is named after the release config; then the values for it are read. -/
  readContribution_eq : ∀ index release, source.load ReleaseFile.decode file = .ok release →
    source.readContribution directory index file =
      if file.fileName = some (release.name ++ "." ++ inputExtension) then do
        let values ← source.inputFiles ((directory.entry .flagValues).join release.name)
        return ⟨directory.displayPath file, index, release,
          ← values.mapM (source.readValue directory)⟩
      else .error (.releaseFileName release.name (directory.displayPath file))

lemma checksName_of_inputFiles (h : source.inputFiles place = .ok files) (hfile : file ∈ files)
    (directory : ConfigDirectory) : source.ChecksName directory file := by
  obtain ⟨hextension, -⟩ := FileTree.exists_of_mem_filesBelow (mapError_eq_ok.mp h) hfile
  have hstem (stem : String) :
      file.fileStem = some stem ↔ file.fileName = some (stem ++ "." ++ inputExtension) :=
    Path.fileStem_eq_some_iff hextension
  refine ⟨fun value hload => ?_, fun index release hload => ?_⟩
  · rw [readValue, hload]
    exact (ite_not ..).trans (if_congr (hstem value.name) rfl rfl)
  · rw [readContribution, hload]
    exact (ite_not ..).trans (if_congr (hstem release.name) rfl rfl)

end Source

namespace Path

/-- **Taking a path apart undoes joining.**  The directory above a joined segment is the path, and
the segment is the file name, with its stem and its extension.  So a scan takes a listed file, below
whatever directory, exactly if its name is the name it should have and the extension. -/
theorem takenApart_join {text segment : String} (hempty : ofText text ≠ ⟨""⟩)
    (hhere : ofText text ≠ ⟨"."⟩) (h : Flat segment) (hne : segment ≠ "") :
    ((ofText text).join segment).parent = some (ofText text) ∧
      ((ofText text).join segment).TakenApart segment ∧
      ∀ (source : Source) (place : Path) (files : List Path),
        source.inputFiles place = .ok files → ∀ file ∈ files, ∀ directory : ConfigDirectory,
          source.ChecksName directory file :=
  ⟨parent_join (isNormal_ofText text) hempty hhere h hne,
    takenApart_of_fileName (h.fileName_join hne (ofText text)),
    fun _ _ _ hfiles _ hfile directory => Source.checksName_of_inputFiles hfiles hfile directory⟩

end Path

/-- A config directory with a release file whose name has two dots. -/
def Source.dotted : Source where
  tree := {
    nodes := ⟨[
      ("/d", .directory),
      ("/d/release_configs", .directory),
      ("/d/release_configs/a.b.toml", .file (some "name='a.b'"))], by
        unfold Increasing
        decide +kernel⟩
    workingDirectory := "" }
  root := ⟨"/"⟩

namespace Path

/-- The release file, with its directory written another way. -/
theorem takenApart_join_dotted :
    (ofText "/d\\release_configs//").join "a.b.toml" = ⟨"/d/release_configs/a.b.toml"⟩ ∧
    (⟨"/d/release_configs/a.b.toml"⟩ : Path).parent = some ⟨"/d/release_configs"⟩ ∧
    TakenApart ⟨"/d/release_configs/a.b.toml"⟩ "a.b.toml" ∧
    Source.dotted.inputFiles ⟨"/d/release_configs"⟩ = .ok [⟨"/d/release_configs/a.b.toml"⟩] ∧
    Source.dotted.ChecksName (Source.dotted.directory "d") ⟨"/d/release_configs/a.b.toml"⟩ := by
  have htext : ofText "/d\\release_configs//" = ⟨"/d/release_configs"⟩ := by decide
  have hjoin : (ofText "/d\\release_configs//").join "a.b.toml" =
      ⟨"/d/release_configs/a.b.toml"⟩ := by decide
  have hempty : ofText "/d\\release_configs//" ≠ ⟨""⟩ := by decide
  have hhere : ofText "/d\\release_configs//" ≠ ⟨"."⟩ := by decide
  have hflat : Flat "a.b.toml" := ⟨by decide, by decide⟩
  obtain ⟨hparent, hname, hchecks⟩ := takenApart_join hempty hhere hflat (by decide)
  rw [hjoin] at hparent hname
  rw [htext] at hparent
  have hfiles : Source.dotted.inputFiles ⟨"/d/release_configs"⟩ =
      .ok [⟨"/d/release_configs/a.b.toml"⟩] := by decide +kernel
  exact ⟨hjoin, hparent, hname, hfiles, hchecks _ _ _ hfiles _ List.mem_cons_self _⟩

end Path

end ReleaseFlags
