import ReleaseFlags.Proofs.InputFiles

/-!
# Trees that are stored elsewhere

A config directory of two sources is the same to a scan if the same files with the same texts are
listed in it, each told by the name of the directory and its place below it (`Source.SameView`).
Then all steps that read the directory have the same outcome and leave the same registry, wherever
the two trees are stored: paths get into the registry, and into errors about what files say, only as
outputs show them.  The exception is the layer below, which knows no config directories.  Its
errors, about a file that cannot be read, listed or decoded, name the path where it was read
(`Source.FileFailure`).
-/

namespace ReleaseFlags

/-! ### Outcomes up to an error -/

section AlikeUpTo

variable {ε α β γ δ σ : Type} {E : ε → ε → Prop} {R : α → β → Prop}

/-- The outcomes are results that are related, or errors that are. -/
inductive AlikeUpTo (E : ε → ε → Prop) (R : α → β → Prop) : Except ε α → Except ε β → Prop
  | ok {a : α} {b : β} (h : R a b) : AlikeUpTo E R (.ok a) (.ok b)
  | error {e e' : ε} (h : E e e') : AlikeUpTo E R (.error e) (.error e')

namespace AlikeUpTo

lemma refl (hE : ∀ e, E e e) (x : Except ε α) : AlikeUpTo E Eq x x := by
  cases x with
  | ok a => exact .ok rfl
  | error e => exact .error (hE e)

lemma bind {S : γ → δ → Prop} {x : Except ε α} {y : Except ε β} {f : α → Except ε γ}
    {g : β → Except ε δ} (h : AlikeUpTo E R x y)
    (hnext : ∀ a b, R a b → AlikeUpTo E S (f a) (g b)) : AlikeUpTo E S (x >>= f) (y >>= g) := by
  cases h with
  | ok h => exact hnext _ _ h
  | error h => exact .error h

/-- What follows is the same in both runs. -/
lemma bind_refl (hE : ∀ e, E e e) {x y : Except ε α} (h : AlikeUpTo E Eq x y)
    (f : α → Except ε γ) : AlikeUpTo E Eq (x >>= f) (y >>= f) := by
  refine h.bind ?_
  rintro a _ rfl
  exact refl hE (f a)

lemma mapError {ε' : Type} {E' : ε' → ε' → Prop} {x : Except ε' α} {y : Except ε' β} {f : ε' → ε}
    (h : AlikeUpTo E' R x y) (hf : ∀ e e', E' e e' → E (f e) (f e')) :
    AlikeUpTo E R (x.mapError f) (y.mapError f) := by
  cases h with
  | ok h => exact .ok h
  | error h => exact .error (hf _ _ h)

lemma mapM_map {f : α → Except ε γ} {g : β → Except ε γ} {k : δ → α} {l : δ → β} {items : List δ}
    (h : ∀ d ∈ items, AlikeUpTo E Eq (f (k d)) (g (l d))) :
    AlikeUpTo E Eq ((items.map k).mapM f) ((items.map l).mapM g) := by
  induction items with
  | nil => exact .ok rfl
  | cons first rest ih =>
    rw [List.map_cons, List.map_cons, List.mapM_cons, List.mapM_cons]
    refine (h first List.mem_cons_self).bind ?_
    rintro result _ rfl
    refine (ih fun d hd => h d (List.mem_cons_of_mem _ hd)).bind ?_
    rintro results _ rfl
    exact .ok rfl

end AlikeUpTo

/-- From every state the runs have outcomes that are alike, and they end in the same state. -/
def RunsAlike (E : ε → ε → Prop) (action other : ExceptT ε (StateM σ) α) : Prop :=
  ∀ s, AlikeUpTo E Eq (action.run s).1 (other.run s).1 ∧ (action.run s).2 = (other.run s).2

namespace RunsAlike

lemma refl (hE : ∀ e, E e e) (action : ExceptT ε (StateM σ) α) : RunsAlike E action action :=
  fun s => ⟨.refl hE (action.run s).1, rfl⟩

lemma bind {action other : ExceptT ε (StateM σ) α} {next next' : α → ExceptT ε (StateM σ) γ}
    (h : RunsAlike E action other) (hnext : ∀ a, RunsAlike E (next a) (next' a)) :
    RunsAlike E (action >>= next) (other >>= next') := by
  intro s
  obtain ⟨houtcome, hstate⟩ := h s
  rcases hrun : action.run s with ⟨outcome, s'⟩
  rcases hrun' : other.run s with ⟨outcome', s''⟩
  rw [hrun, hrun'] at houtcome hstate
  cases hstate
  cases houtcome with
  | ok heq =>
    cases heq
    rw [run_bind_of_ok hrun, run_bind_of_ok hrun']
    exact hnext _ s'
  | error h =>
    rw [run_bind_of_error hrun, run_bind_of_error hrun']
    exact ⟨.error h, rfl⟩

/-- Nothing is done after an error. -/
lemma throw_bind (hE : ∀ e, E e e) (e : ε) {next next' : α → ExceptT ε (StateM σ) γ} :
    RunsAlike E ((throw e : ExceptT ε (StateM σ) α) >>= next) (throw e >>= next') := by
  intro s
  rw [run_bind_of_error (rfl : (throw e : ExceptT ε (StateM σ) α).run s = (.error e, s)),
    run_bind_of_error (rfl : (throw e : ExceptT ε (StateM σ) α).run s = (.error e, s))]
  exact ⟨.error (hE e), rfl⟩

lemma ite {c : Prop} [Decidable c] {yes no yes' no' : ExceptT ε (StateM σ) α}
    (hyes : RunsAlike E yes yes') (hno : RunsAlike E no no') :
    RunsAlike E (if c then yes else no) (if c then yes' else no') := by
  split
  · exact hyes
  · exact hno

/-- What is done with a value that was found may rely on how it was found. -/
lemma liftExcept_bind {x : Except ε α} {y : Except ε β} {next : α → ExceptT ε (StateM σ) γ}
    {next' : β → ExceptT ε (StateM σ) γ} (h : AlikeUpTo E R x y)
    (hnext : ∀ a b, x = .ok a → R a b → RunsAlike E (next a) (next' b)) :
    RunsAlike E (liftExcept x >>= next) (liftExcept y >>= next') := by
  intro s
  rw [run_liftExcept_bind, run_liftExcept_bind]
  cases h with
  | ok h => exact hnext _ _ rfl h s
  | error h => exact ⟨.error h, rfl⟩

lemma forM_map {f : α → ExceptT ε (StateM σ) PUnit} {g : β → ExceptT ε (StateM σ) PUnit}
    {k : δ → α} {l : δ → β} {items : List δ} (h : ∀ d ∈ items, RunsAlike E (f (k d)) (g (l d))) :
    RunsAlike E ((items.map k).forM f) ((items.map l).forM g) := by
  induction items with
  | nil => exact fun s => ⟨.ok rfl, rfl⟩
  | cons first rest ih =>
    exact (h first List.mem_cons_self).bind fun _ => ih fun d hd => h d (List.mem_cons_of_mem _ hd)

end RunsAlike

end AlikeUpTo

/-! ### The name of a file below a directory -/

namespace Path

variable {p q : Path} {segment other : String}

lemma fileNameChars_join_inner (hp : p.IsNormal) (h : IsInner segment) :
    (p.join segment).fileNameChars = Path.fileNameChars ⟨segment⟩ := by
  rw [fileNameChars, fileNameChars, toList_join_inner hp h,
    h.endsInName.dropTrailingSlashes_append, dropTrailingSlashes_of_getLast? h.slash_not_last]
  rcases splitAtLast_cases '/' segment.toList with
    ⟨hmem, hnone⟩ | ⟨before, after, htext, hmem, hsome⟩
  · rcases p.base_eq with hbase | ⟨front, hbase⟩
    · rw [hbase, List.nil_append]
    · simp [hbase, splitAtLast_append hmem, hnone]
  · simp only [hsome]
    rw [htext, ← List.append_assoc]
    simp only [splitAtLast_append hmem]

lemma fileStem_join_inner (hp : p.IsNormal) (h : IsInner segment) :
    (p.join segment).fileStem = Path.fileStem ⟨segment⟩ := by
  rw [fileStem, fileStem, fileNameChars_join_inner hp h]

lemma ofPath_join_inner (hp : p.IsNormal) (h : IsInner segment) :
    Format.ofPath (p.join segment) = Format.ofPath ⟨segment⟩ := by
  unfold Format.ofPath fileExtension
  rw [fileNameChars_join_inner hp h]

/-- Different segments lead to different places below a directory. -/
lemma eq_of_join_inner_eq (hp : p.IsNormal) (h : IsInner segment) (h' : IsInner other)
    (heq : p.join segment = p.join other) : segment = other := by
  have htext := congrArg (fun q => q.text.toList) heq
  simp only [toList_join_inner hp h, toList_join_inner hp h'] at htext
  exact String.toList_inj.mp (List.append_cancel_left htext)

end Path

/-- What cannot be read is reported by its path. -/
lemma FileTree.read_eq (tree : FileTree) (path : Path) :
    tree.read path = match (tree.read path).toOption with
      | some content => .ok content
      | none => .error (.io path.text) := by
  unfold FileTree.read
  split <;> rfl

/-- The two config directories are shown by the same name. -/
structure ConfigDirectory.ShownAlike (directory directory' : ConfigDirectory) : Prop where
  isNormal : directory.path.IsNormal
  isNormal' : directory'.path.IsNormal
  isNormal_display : directory.display.IsNormal
  display_eq : directory.display = directory'.display

namespace Source

variable {source source' : Source} {directory directory' : ConfigDirectory}
  {name segment : String} {directories : List String}

lemma shownAlike (source source' : Source) (name : String) :
    (source.directory name).ShownAlike (source'.directory name) where
  isNormal := source.isNormal_path name
  isNormal' := source'.isNormal_path name
  isNormal_display := Path.isNormal_ofText name
  display_eq := by rw [Source.directory, Source.directory]

/-! ### What a scan sees of a config directory -/

/-- The text of the file that a segment of a config directory leads to, if it has one. -/
def contentAt (source : Source) (directory : ConfigDirectory) (segment : String) : Option String :=
  (source.tree.read (directory.path.join segment)).toOption

/-- The files of a list: how outputs show each one, and its text. -/
def shownFiles (source : Source) (directory : ConfigDirectory) (files : List Path) :
    List (String × Option String) :=
  files.map fun file => (directory.displayPath file, (source.tree.read file).toOption)

/-- The files that are listed below a segment of a config directory, if they can be listed. -/
def listedAt (source : Source) (directory : ConfigDirectory) (segment : String) :
    Option (List (String × Option String)) :=
  (source.inputFiles (directory.path.join segment)).toOption.map (source.shownFiles directory)

/-- The segments of a config directory that files may be listed below: the declarations, the release
files, and the values for each release config that a release file is named after. -/
def listedSegments (source : Source) (directory : ConfigDirectory) : List String :=
  let releases := (source.inputFiles (directory.entry .releaseConfigs)).toOption.getD []
  DirectoryEntry.flagDeclarations.name :: DirectoryEntry.releaseConfigs.name ::
    (releases.filterMap Path.fileStem).map fun config => "flag_values/" ++ config

/-- The config directory of a name is the same in both sources: it has the same map file, and the
same files with the same texts are listed in it. -/
structure SameView (source source' : Source) (name : String) : Prop where
  isFile_map : source.tree.isFile ((source.directory name).entry .map) =
    source'.tree.isFile ((source'.directory name).entry .map)
  contentAt_map : source.contentAt (source.directory name) DirectoryEntry.map.name =
    source'.contentAt (source'.directory name) DirectoryEntry.map.name
  listedAt_eq : ∀ segment ∈ source.listedSegments (source.directory name),
    source.listedAt (source.directory name) segment =
      source'.listedAt (source'.directory name) segment

/-- The same failure of the layer that reads files, at the same place below two directories.  Each
of the two errors names the path in its own source. -/
inductive FileFailure (source source' : Source) (directory directory' : ConfigDirectory) :
    Error → Error → Prop
  | unreadable {segment : String} (hinner : Path.IsInner segment) :
      FileFailure source source' directory directory'
        (.file (.io (directory.path.join segment).text))
        (.file (.io (directory'.path.join segment).text))
  | undecodable {segment : String} (hinner : Path.IsInner segment) (format : Format) :
      FileFailure source source' directory directory'
        (.file (.parse format (directory.path.join segment).text))
        (.file (.parse format (directory'.path.join segment).text))
  | unlisted {segment : String} {e e' : FileError} (hinner : Path.IsInner segment)
      (hlist : source.inputFiles (directory.path.join segment) = .error (.file e))
      (hlist' : source'.inputFiles (directory'.path.join segment) = .error (.file e')) :
      FileFailure source source' directory directory' (.file e) (.file e')

/-- The errors are equal, or the same failure of the layer that reads files. -/
def SameError (source source' : Source) (directories : List String) (e e' : Error) : Prop :=
  e = e' ∨ ∃ name ∈ directories,
    source.FileFailure source' (source.directory name) (source'.directory name) e e'

/-- The segment leads to the same text below both directories. -/
structure SameFile (source source' : Source) (directory directory' : ConfigDirectory)
    (segment : String) : Prop where
  inner : Path.IsInner segment
  contentAt_eq : source.contentAt directory segment = source'.contentAt directory' segment

/-! ### The same files -/

/-- All files of a list are below the directory. -/
lemma exists_map_join {p : Path} {files : List Path}
    (h : ∀ file ∈ files, ∃ segment, Path.IsInner segment ∧ file = p.join segment) :
    ∃ segments : List String, (∀ segment ∈ segments, Path.IsInner segment) ∧
      files = segments.map p.join := by
  induction files with
  | nil => exact ⟨[], nofun, rfl⟩
  | cons first rest ih =>
    obtain ⟨hfirst, hrest⟩ := List.forall_mem_cons.mp h
    obtain ⟨segment, hinner, heq⟩ := hfirst
    obtain ⟨segments, hinners, heqs⟩ := ih hrest
    exact ⟨segment :: segments, List.forall_mem_cons.mpr ⟨hinner, hinners⟩,
      by rw [heq, heqs, List.map_cons]⟩

section ShownAlike

variable (hshown : directory.ShownAlike directory')
include hshown

lemma displayPath_alike (h : Path.IsInner segment) :
    directory.displayPath (directory.path.join segment) =
      directory'.displayPath (directory'.path.join segment) := by
  rw [ConfigDirectory.displayPath_join hshown.isNormal h,
    ConfigDirectory.displayPath_join hshown.isNormal' h, hshown.display_eq]

lemma fileStem_alike (h : Path.IsInner segment) :
    (directory.path.join segment).fileStem = (directory'.path.join segment).fileStem := by
  rw [Path.fileStem_join_inner hshown.isNormal h, Path.fileStem_join_inner hshown.isNormal' h]

/-- Lists of files that outputs show alike, with the same texts, are those of the same segments. -/
lemma sameFile_of_shownFiles_eq {segments segments' : List String}
    (h : ∀ segment ∈ segments, Path.IsInner segment)
    (h' : ∀ segment ∈ segments', Path.IsInner segment)
    (heq : source.shownFiles directory (segments.map directory.path.join) =
      source'.shownFiles directory' (segments'.map directory'.path.join)) :
    segments' = segments ∧
      ∀ segment ∈ segments, source.SameFile source' directory directory' segment := by
  induction segments generalizing segments' with
  | nil =>
    cases segments' with
    | nil => exact ⟨rfl, nofun⟩
    | cons => cases heq
  | cons segment rest ih =>
    cases segments' with
    | nil => cases heq
    | cons segment' rest' =>
      obtain ⟨hinner, hrest⟩ := List.forall_mem_cons.mp h
      obtain ⟨hinner', hrest'⟩ := List.forall_mem_cons.mp h'
      obtain ⟨hpair, heq⟩ := List.cons.inj heq
      obtain ⟨hdisplay, hcontent⟩ := Prod.mk.inj hpair
      obtain ⟨hsegments, hall⟩ := ih hrest hrest' heq
      rw [← displayPath_alike hshown hinner',
        ConfigDirectory.displayPath_join hshown.isNormal hinner,
        ConfigDirectory.displayPath_join hshown.isNormal hinner'] at hdisplay
      have hsegment : segment = segment' :=
        Path.eq_of_join_inner_eq hshown.isNormal_display hinner hinner'
          (by rw [Path.mk.injEq, hdisplay])
      subst hsegment hsegments
      exact ⟨rfl, List.forall_mem_cons.mpr ⟨⟨hinner, hcontent⟩, hall⟩⟩

/-! ### Reading the files -/

variable {E : Error → Error → Prop} (hE : ∀ e, E e e)
  (hfailure : ∀ e e', source.FileFailure source' directory directory' e e' → E e e')
include hE hfailure

omit hE in
/-- A segment lists the same files below the directories, or none in both sources. -/
lemma alike_inputFiles (hinner : Path.IsInner segment)
    (h : source.listedAt directory segment = source'.listedAt directory' segment) :
    AlikeUpTo E (fun files files' => ∃ segments : List String,
        (∀ inner ∈ segments, source.SameFile source' directory directory' inner) ∧
          files = segments.map directory.path.join ∧ files' = segments.map directory'.path.join)
      (source.inputFiles (directory.path.join segment))
      (source'.inputFiles (directory'.path.join segment)) := by
  unfold listedAt at h
  cases hfiles : source.inputFiles (directory.path.join segment) with
  | error e =>
    obtain ⟨e, -, rfl⟩ := mapError_eq_error.mp hfiles
    cases hfiles' : source'.inputFiles (directory'.path.join segment) with
    | error e' =>
      obtain ⟨e', -, rfl⟩ := mapError_eq_error.mp hfiles'
      exact .error (hfailure _ _ (.unlisted hinner hfiles hfiles'))
    | ok files' =>
      rw [hfiles, hfiles'] at h
      cases h
  | ok files =>
    cases hfiles' : source'.inputFiles (directory'.path.join segment) with
    | error e' =>
      rw [hfiles, hfiles'] at h
      cases h
    | ok files' =>
      rw [hfiles, hfiles'] at h
      obtain ⟨segments, hinners, rfl⟩ := exists_map_join fun file hfile =>
        exists_inner_of_inputFiles hshown.isNormal hinner hfiles hfile
      obtain ⟨segments', hinners', rfl⟩ := exists_map_join fun file hfile =>
        exists_inner_of_inputFiles hshown.isNormal' hinner hfiles' hfile
      obtain ⟨rfl, hall⟩ :=
        sameFile_of_shownFiles_eq hshown hinners hinners' (Option.some.inj h)
      exact .ok ⟨_, hall, rfl, rfl⟩

omit hshown hE in
lemma alike_read (h : source.SameFile source' directory directory' segment) :
    AlikeUpTo (fun e e' => E (.file e) (.file e')) Eq
      (source.tree.read (directory.path.join segment))
      (source'.tree.read (directory'.path.join segment)) := by
  have hcontent := h.contentAt_eq
  unfold contentAt at hcontent
  rw [FileTree.read_eq, FileTree.read_eq source'.tree, hcontent]
  cases (source'.tree.read (directory'.path.join segment)).toOption with
  | none => exact .error (hfailure _ _ (.unreadable h.inner))
  | some content => exact .ok rfl

lemma alike_parseFile (h : Path.IsInner segment) {α : Type} (decode : Format → Decoder α)
    (content : String) : AlikeUpTo (fun e e' => E (.file e) (.file e')) Eq
      (parseFile decode (directory.path.join segment) content)
      (parseFile decode (directory'.path.join segment) content) := by
  unfold parseFile
  rw [Path.ofPath_join_inner hshown.isNormal h, Path.ofPath_join_inner hshown.isNormal' h]
  refine (AlikeUpTo.refl (fun e => hE (.file e)) (Format.ofPath ⟨segment⟩)).bind ?_
  rintro format _ rfl
  cases format.read content >>= decode format with
  | none => exact .error (hfailure _ _ (.undecodable h format))
  | some message => exact .ok rfl

lemma alike_load (h : source.SameFile source' directory directory' segment) {α : Type}
    (decode : Format → Decoder α) : AlikeUpTo E Eq
      (source.load decode (directory.path.join segment))
      (source'.load decode (directory'.path.join segment)) := by
  refine ((alike_read hfailure h).bind ?_).mapError fun _ _ => id
  rintro content _ rfl
  exact alike_parseFile hshown hE hfailure h.inner decode content

lemma alike_readDeclaration (h : source.SameFile source' directory directory' segment)
    (containers : List String) (path : String) : AlikeUpTo E Eq
      (source.readDeclaration containers (directory.path.join segment) path)
      (source'.readDeclaration containers (directory'.path.join segment) path) := by
  unfold readDeclaration
  exact (alike_load hshown hE hfailure h _).bind_refl hE _

lemma alike_readValue (h : source.SameFile source' directory directory' segment) : AlikeUpTo E Eq
    (source.readValue directory (directory.path.join segment))
    (source'.readValue directory' (directory'.path.join segment)) := by
  unfold readValue
  rw [displayPath_alike hshown h.inner, fileStem_alike hshown h.inner]
  exact (alike_load hshown hE hfailure h _).bind_refl hE _

/-- A release file may be read with the values for its release config. -/
lemma alike_readContribution (h : source.SameFile source' directory directory' segment)
    (hvalues : ∀ config, (directory.path.join segment).fileStem = some config →
      (Path.EndsInName config ∧ '\\' ∉ config.toList) ∧
        source.listedAt directory ("flag_values/" ++ config) =
          source'.listedAt directory' ("flag_values/" ++ config))
    (index : Nat) : AlikeUpTo E Eq
      (source.readContribution directory index (directory.path.join segment))
      (source'.readContribution directory' index (directory'.path.join segment)) := by
  unfold readContribution
  rw [displayPath_alike hshown h.inner, ← fileStem_alike hshown h.inner]
  refine (alike_load hshown hE hfailure h _).bind ?_
  rintro release _ rfl
  by_cases hstem : (directory.path.join segment).fileStem = some release.name
  · obtain ⟨hends, hlisted⟩ := hvalues release.name hstem
    obtain ⟨hinner, hjoin⟩ := join_flagValues hshown.isNormal hends
    obtain ⟨-, hjoin'⟩ := join_flagValues hshown.isNormal' hends
    simp only [hstem, ne_eq, not_true_eq_false, if_false]
    rw [hjoin, hjoin']
    refine (alike_inputFiles hshown hfailure hinner hlisted).bind ?_
    rintro _ _ ⟨segments, hall, rfl, rfl⟩
    refine AlikeUpTo.bind_refl hE (AlikeUpTo.mapM_map fun inner hmem => ?_) _
    exact alike_readValue hshown hE hfailure (hall inner hmem)
  · simp only [hstem, ne_eq, not_false_eq_true, if_true]
    exact .error (hE _)

/-! ### Loading the directory -/

lemma runsAlike_loadDeclarations
    (h : source.listedAt directory DirectoryEntry.flagDeclarations.name =
      source'.listedAt directory' DirectoryEntry.flagDeclarations.name)
    (index : Nat) (containers : List String) : RunsAlike E
      (source.loadDeclarations directory index containers)
      (source'.loadDeclarations directory' index containers) := by
  unfold loadDeclarations
  refine RunsAlike.liftExcept_bind
    (alike_inputFiles hshown hfailure DirectoryEntry.flagDeclarations.isInner_name h) ?_
  rintro _ _ - ⟨segments, hall, rfl, rfl⟩
  refine RunsAlike.forM_map fun inner hmem => ?_
  rw [displayPath_alike hshown (hall inner hmem).inner]
  refine RunsAlike.liftExcept_bind
    (alike_readDeclaration hshown hE hfailure (hall inner hmem) containers _) ?_
  rintro declaration _ - rfl
  exact .refl hE _

lemma runsAlike_loadContributions
    (h : ∀ segment ∈ source.listedSegments directory,
      source.listedAt directory segment = source'.listedAt directory' segment)
    (index : Nat) : RunsAlike E (source.loadContributions directory index)
      (source'.loadContributions directory' index) := by
  have hreleases := h _ (List.mem_cons_of_mem _ List.mem_cons_self)
  unfold loadContributions
  refine RunsAlike.liftExcept_bind
    (alike_inputFiles hshown hfailure DirectoryEntry.releaseConfigs.isInner_name hreleases) ?_
  rintro _ _ hfiles ⟨segments, hall, rfl, rfl⟩
  refine RunsAlike.forM_map fun inner hmem => ?_
  have hfile : directory.path.join inner ∈ segments.map directory.path.join :=
    List.mem_map_of_mem hmem
  refine RunsAlike.liftExcept_bind
    (alike_readContribution hshown hE hfailure (hall inner hmem)
      (fun config hconfig => ?_) index) ?_
  · refine ⟨endsInName_of_fileStem hfiles hfile hconfig, h _ ?_⟩
    refine List.mem_cons_of_mem _ (List.mem_cons_of_mem _ (List.mem_map_of_mem ?_))
    rw [hfiles]
    exact List.mem_filterMap.mpr ⟨_, hfile, hconfig⟩
  · rintro c _ - rfl
    exact .refl hE _

end ShownAlike

/-- A config directory that is the same in both sources is loaded alike. -/
lemma runsAlike_loadDirectory (h : source.SameView source' name) (hname : name ∈ directories) :
    RunsAlike (source.SameError source' directories) (source.loadDirectory name)
      (source'.loadDirectory name) := by
  have hshown := source.shownAlike source' name
  have hrefl (e : Error) : source.SameError source' directories e e := .inl rfl
  have hfailure (e e' : Error)
      (h : source.FileFailure source' (source.directory name) (source'.directory name) e e') :
      source.SameError source' directories e e' := .inr ⟨name, hname, h⟩
  have hmap : source.SameFile source' (source.directory name) (source'.directory name)
      DirectoryEntry.map.name := ⟨DirectoryEntry.map.isInner_name, h.contentAt_map⟩
  have hdisplay : (source'.directory name).display = (source.directory name).display :=
    hshown.display_eq.symm
  have hmapFile : (source.directory name).displayPath ((source.directory name).entry .map) =
      (source'.directory name).displayPath ((source'.directory name).entry .map) :=
    displayPath_alike hshown hmap.inner
  unfold loadDirectory
  refine .bind (.refl hrefl _) fun registry => ?_
  refine .bind (.refl hrefl _) fun registry' => ?_
  dsimp only
  rw [hdisplay, ← h.isFile_map, ← hmapFile]
  refine .ite (.throw_bind hrefl _) (.ite (.throw_bind hrefl _) ?_)
  refine .liftExcept_bind (alike_load hshown hrefl hfailure hmap _) ?_
  rintro map _ - rfl
  refine .bind (.refl hrefl _) fun _ => .bind (.refl hrefl _) fun _ => ?_
  refine .bind (runsAlike_loadDeclarations hshown hrefl hfailure
    (h.listedAt_eq _ List.mem_cons_self) _ _) fun _ => ?_
  exact (runsAlike_loadContributions hshown hrefl hfailure h.listedAt_eq _).bind
    fun _ => .refl hrefl _

/-- Scans of directories that are the same in both sources have the same outcome. -/
lemma alike_scan (h : ∀ name ∈ directories, source.SameView source' name) :
    AlikeUpTo (source.SameError source' directories) Eq (source.scan directories)
      (source'.scan directories) := by
  have hload := RunsAlike.forM_map (k := id) (l := id) fun name hname =>
    runsAlike_loadDirectory (h name hname) hname
  rw [List.map_id] at hload
  obtain ⟨houtcome, hstate⟩ := hload Registry.empty
  unfold scan
  rcases hrun : (directories.forM source.loadDirectory).run Registry.empty with ⟨outcome, registry⟩
  rcases hrun' : (directories.forM source'.loadDirectory).run Registry.empty with
    ⟨outcome', registry'⟩
  rw [hrun, hrun'] at houtcome hstate
  cases hstate
  cases houtcome with
  | ok _ => exact .refl (fun e => .inl rfl) registry.linkAliases
  | error h => exact .error h

/-- What outputs show of the config directories of a source: their names, as they are given. -/
structure ShownByName (source : Source) : Prop where
  /-- A file below a config directory is shown as the same file below the name. -/
  displayPath_join : ∀ name segment, Path.IsInner segment →
    (source.directory name).displayPath ((source.directory name).path.join segment) =
      ((Path.ofText name).join segment).text
  /-- All files that are read from a config directory are such files. -/
  displayPath_of_reads : ∀ name file, source.Reads name file → ∃ segment, Path.IsInner segment ∧
    file = (source.directory name).path.join segment ∧
    (source.directory name).displayPath file = ((Path.ofText name).join segment).text
  /-- Directories that are the same in another source give the same registry there, or the same
  error, unless this is a failure of the layer that reads files. -/
  alike_scan : ∀ source' directories, (∀ name ∈ directories, source.SameView source' name) →
    AlikeUpTo (source.SameError source' directories) Eq (source.scan directories)
      (source'.scan directories)

/-- **Outputs do not depend on where the tree is.**  The paths in the registry are told by the names
of the config directories, and so are the paths in errors, but for files that cannot be read, listed
or decoded. -/
theorem shownByName (source : Source) : source.ShownByName where
  displayPath_join _ _ := displayPath_join
  displayPath_of_reads name file h := by
    obtain ⟨segment, hinner, hfile⟩ := h.exists_inner
    exact ⟨segment, hinner, hfile, by rw [hfile, displayPath_join hinner]⟩
  alike_scan _ _ := alike_scan

/-- A tree with the same config directory at two places, one of them in the working directory. -/
def twoPlaces : FileTree where
  nodes := ⟨[
    ("/here", .directory),
    ("/here/d", .directory),
    ("/here/d/flag_values", .directory),
    ("/here/d/flag_values/a", .directory),
    ("/here/d/flag_values/a/F.toml", .file (some "name='F'\nredacted=true")),
    ("/here/d/release_config_map.toml", .file (some "")),
    ("/here/d/release_configs", .directory),
    ("/here/d/release_configs/a.toml", .file (some "name='a'")),
    ("/there", .directory),
    ("/there/d", .directory),
    ("/there/d/flag_values", .directory),
    ("/there/d/flag_values/a", .directory),
    ("/there/d/flag_values/a/F.toml", .file (some "name='F'\nredacted=true")),
    ("/there/d/release_config_map.toml", .file (some "")),
    ("/there/d/release_configs", .directory),
    ("/there/d/release_configs/a.toml", .file (some "name='a'"))], by
      unfold Increasing
      decide +kernel⟩
  workingDirectory := "/here"

/-- The two sources of the tree. -/
def here : Source := ⟨twoPlaces, ⟨""⟩⟩

def there : Source := ⟨twoPlaces, ⟨"/there"⟩⟩

theorem shownByName_twoPlaces : here.SameView there "d/" ∧
    ∃ registry, here.scan ["d/"] = .ok registry ∧ there.scan ["d/"] = .ok registry := by
  have hsegments : here.listedSegments (here.directory "d/") =
      ["flag_declarations", "release_configs", "flag_values/a"] := by decide +kernel
  have hlisted : ∀ segment ∈ ["flag_declarations", "release_configs", "flag_values/a"],
      here.listedAt (here.directory "d/") segment =
        there.listedAt (there.directory "d/") segment := by decide +kernel
  have hsame : here.SameView there "d/" :=
    ⟨by decide +kernel, by decide +kernel, fun segment hmem => hlisted segment (hsegments ▸ hmem)⟩
  have hok : (here.scan ["d/"]).isOk = true := by decide +kernel
  refine ⟨hsame, ?_⟩
  have halike := (shownByName here).alike_scan there ["d/"] fun name hname =>
    List.mem_singleton.mp hname ▸ hsame
  rcases hhere : here.scan ["d/"] with e | registry
  · rw [hhere] at hok
    cases hok
  · rw [hhere] at halike
    rcases hthere : there.scan ["d/"] with e | registry'
    · rw [hthere] at halike
      cases halike
    · rw [hthere] at halike
      cases halike with
      | ok heq => exact ⟨registry, rfl, congrArg _ heq.symm⟩

/-- A config directory with a map file that is no document. -/
def garbledTree : FileTree where
  nodes := ⟨[
    ("/d", .directory),
    ("/d/release_config_map.toml", .file (some "="))], by
      unfold Increasing
      decide +kernel⟩
  workingDirectory := ""

/-- The directory, read from the working directory or from the top. -/
def garbled (root : String) : Source := ⟨garbledTree, ⟨root⟩⟩

/-- The error of a file that cannot be decoded names the path where it was read, also if the
directory is given by a relative name and is the same one. -/
theorem decodingError_dependsOn_root : (garbled "").SameView (garbled "/") "d" ∧
    (Path.ofText "d").isAbsolute = false ∧
    (garbled "").scan ["d"] = .error (.file (.parse .toml "d/release_config_map.toml")) ∧
    (garbled "/").scan ["d"] = .error (.file (.parse .toml "/d/release_config_map.toml")) := by
  have herror {outcome : Except Error Registry} {e : Error}
      (h : (match outcome with | .ok _ => false | .error e' => e' = e) = true) :
      outcome = .error e := by
    cases outcome with
    | ok registry => cases h
    | error e' => rw [of_decide_eq_true h]
  have hsegments : (garbled "").listedSegments ((garbled "").directory "d") =
      ["flag_declarations", "release_configs"] := by decide +kernel
  have hlisted : ∀ segment ∈ ["flag_declarations", "release_configs"],
      (garbled "").listedAt ((garbled "").directory "d") segment =
        (garbled "/").listedAt ((garbled "/").directory "d") segment := by decide +kernel
  have hsame : (garbled "").SameView (garbled "/") "d" :=
    ⟨by decide +kernel, by decide +kernel, fun segment hmem => hlisted segment (hsegments ▸ hmem)⟩
  exact ⟨hsame, by decide, herror (by decide +kernel), herror (by decide +kernel)⟩

end Source

end ReleaseFlags
