import ReleaseFlags.Proofs.Message.RoundTrip
import ReleaseFlags.Proofs.Path
import ReleaseFlags.Proofs.Report.Exports
import ReleaseFlags.Proofs.Report.Outputs
import ReleaseFlags.Proofs.Resolution.Partitions

/-!
# The files of the partitions

The report of a partition lists the flags that are not redacted, each as often as it lists the
partition among its containers, by increasing name (`Registry.Reached.listsExactly`).  The fragment
of a config that exports nothing has the same partitions: what a report leaves out of the members of
its partition is redacted (`Makefile.matchesReports_settings`).  There is one file for each
partition (`PartitionReport.writeAll_eq`), and since containers are identifiers of small letters,
all of these files have different names in one directory (`PartitionReport.nodup_files`).  So none
is written on top of another one, and each holds its report (`PartitionReport.heldIn_files`).
-/

namespace ReleaseFlags

variable {flags : Flags} {flag : FlagState} {resolved : Resolved} {report : PartitionReport}
  {key container : String}

/-! ### What a partition lists -/

namespace PartitionReport

/-- The names of the flags, in the order of the report. -/
def names (report : PartitionReport) : List String :=
  report.flags.map fun r => r.declaration.name

/-- The report of a partition lists the flags that it should. -/
structure ListsExactly (flags : Flags) (container : String) (report : PartitionReport) : Prop where
  /-- A flag is listed as often as it lists the partition, unless it is redacted. -/
  count_eq : ∀ key flag, flags.get? key = some flag → report.names.count key =
    if flag.redacted then 0 else flag.declaration.containers.count container
  /-- What is listed is a flag with its value and declaration, and without traces. -/
  mem : ∀ r ∈ report.flags, ∃ flag, flags.get? r.declaration.name = some flag ∧
    flag.redacted = false ∧ container ∈ flag.declaration.containers ∧
      r = ⟨flag.declaration, flag.value, []⟩
  sorted : report.names.Pairwise (· ≤ ·)
  sortByName_eq : report.sortByName = report

end PartitionReport

/-- The flags that are filed under a container, without those that are redacted. -/
def shownIn (flags : Flags) (container : String) : List String :=
  (Makefile.membersOf flags container).filter fun key => !flags.hides key

lemma shownIn_eq (flags : Flags) (container : String) : shownIn flags container =
    flags.entries.flatMap fun entry => if entry.2.redacted then []
      else List.replicate (entry.2.declaration.containers.count container) entry.1 := by
  rw [shownIn, Makefile.membersOf, List.filter_flatMap]
  refine List.flatMap_congr fun entry hentry => ?_
  have hhides := Flags.hides_of_get? (NameMap.mem_entries.mp hentry)
  cases hredacted : entry.2.redacted <;> simp [hhides, hredacted]

/-- The reports in a partition are those of the flags shown there. -/
lemma map_name_reportsIn (hnamed : ∀ key flag, flags.get? key = some flag → flag.name = key)
    (container : String) :
    (flags.values.flatMap fun flag => flag.reportsIn container).map (fun r => r.declaration.name) =
      shownIn flags container := by
  rw [shownIn_eq, NameMap.values, List.flatMap_map, List.map_flatMap]
  refine List.flatMap_congr fun entry hentry => ?_
  have hname : entry.2.declaration.name = entry.1 :=
    hnamed entry.1 entry.2 (NameMap.mem_entries.mp hentry)
  cases hredacted : entry.2.redacted <;>
    simp [FlagState.reportsIn, FlagState.reportWithoutTraces, hredacted, hname]

/-- The names are in order, since the flags are filed by increasing name. -/
lemma pairwise_shownIn (flags : Flags) (container : String) :
    (shownIn flags container).Pairwise (· ≤ ·) := by
  have hof {key shown : String} {flag : FlagState} (hmem : shown ∈ if flag.redacted then []
      else List.replicate (flag.declaration.containers.count container) key) : shown = key := by
    split at hmem
    · cases hmem
    · exact List.eq_of_mem_replicate hmem
  rw [shownIn_eq, List.pairwise_flatMap]
  refine ⟨fun entry _ => ?_, flags.increasing.imp fun {first second} hlt x hx y hy => ?_⟩
  · split
    · exact .nil
    · exact List.pairwise_replicate.mpr (.inr (String.le_refl _))
  · rw [hof hx, hof hy]
    exact String.not_lt.mp (String.lt_asymm hlt)

/-- A flag is shown as often as it lists the container, unless it is redacted. -/
lemma count_shownIn (hflag : flags.get? key = some flag) (container : String) :
    (shownIn flags container).count key =
      if flag.redacted then 0 else flag.declaration.containers.count container := by
  obtain ⟨front, back, hentries, hfront, hback⟩ := NameMap.exists_split hflag
  have hother {entries : List (String × FlagState)} (h : ∀ e ∈ entries, e.1 ≠ key) :
      (entries.flatMap fun entry => if entry.2.redacted then []
        else List.replicate (entry.2.declaration.containers.count container) entry.1).count key =
          0 := by
    refine List.count_eq_zero.mpr fun hmem => ?_
    obtain ⟨entry, hentry, hmem⟩ := List.mem_flatMap.mp hmem
    split at hmem
    · cases hmem
    · exact h entry hentry (List.eq_of_mem_replicate hmem).symm
  rw [shownIn_eq, hentries, List.flatMap_append, List.flatMap_cons, List.count_append,
    List.count_append, hother hfront, hother hback]
  cases flag.redacted <;> simp

/-- The report of a container lists what is shown in it. -/
lemma names_of_get? (hnamed : ∀ key flag, flags.get? key = some flag → flag.name = key)
    (hget : (partitionsOf flags).get? container = some report) :
    report.names = shownIn flags container := by
  rw [lists_partitionsOf flags] at hget
  split at hget
  · cases hget
  · cases hget
    exact map_name_reportsIn hnamed container

/-- A container has a report exactly if a flag that is not redacted lists it. -/
lemma mem_names_partitionsOf : container ∈ (partitionsOf flags).names ↔ ∃ key flag,
    flags.get? key = some flag ∧ flag.redacted = false ∧
      container ∈ flag.declaration.containers := by
  have hsome (reports : List FlagReport) : (∃ partition : PartitionReport,
      (if reports = [] then none else some ⟨reports⟩) = some partition) ↔
        ∃ r, r ∈ reports := by
    cases reports <;> simp
  simp only [NameMap.mem_names, lists_partitionsOf flags container, hsome, List.mem_flatMap,
    NameMap.mem_values, FlagState.mem_reportsIn]
  constructor
  · rintro ⟨-, flag, ⟨key, hflag⟩, hmem, hplain, -⟩
    exact ⟨key, flag, hflag, hplain, hmem⟩
  · rintro ⟨key, flag, hflag, hplain, hmem⟩
    exact ⟨_, flag, ⟨key, hflag⟩, hmem, hplain, rfl⟩

/-- The reports of a partition are in order, so sorting them changes nothing. -/
lemma listsExactly_of_get? (hnamed : ∀ key flag, flags.get? key = some flag → flag.name = key)
    (hget : (partitionsOf flags).get? container = some report) :
    report.ListsExactly flags container := by
  have hnames := names_of_get? hnamed hget
  have hsorted : report.names.Pairwise (· ≤ ·) := by
    rw [hnames]
    exact pairwise_shownIn flags container
  refine ⟨fun key flag hflag => ?_, fun r hr => ?_, hsorted, ?_⟩
  · rw [hnames, count_shownIn hflag]
  · obtain ⟨key, flag, hflag, hmem, hplain, rfl⟩ := exists_of_mem_partition hget hr
    have hname : flag.declaration.name = key := hnamed key flag hflag
    exact ⟨flag, hname.symm ▸ hflag, hplain, hmem, rfl⟩
  · have hflags := List.pairwise_map.mp hsorted
    rw [PartitionReport.sortByName, List.mergeSort_of_pairwise (by simpa using hflags)]

/-! ### The files -/

namespace PartitionReport

/-- The files of the partitions, by increasing name of the partition. -/
def files (resolved : Resolved) (directory : Path) : List Output :=
  resolved.partitions.entries.map fun (container, report) =>
    ⟨directory.join (fileName container), Json.print report.data ++ "\n", false⟩

/-- The name of the file is a single component, since the container is an identifier. -/
lemma isComponent_fileName (h : Spelled 'a' 'z' container) :
    Path.IsComponent (fileName container) := by
  have hslash : '/' ∉ container.toList := h.notMem (by decide)
  have hbackslash : '\\' ∉ container.toList := h.notMem (by decide)
  refine ⟨⟨by simp [fileName, hslash], by simp [fileName, hbackslash]⟩, ?_, ?_, ?_⟩ <;>
    simp [fileName, ← String.toList_inj]

lemma eq_of_fileName_eq {other : String} (h : fileName container = fileName other) :
    container = other := by
  rw [← String.toList_inj] at h
  simpa [fileName, ← String.toList_inj] using h

/-- Nothing can go wrong when the content of the file is made. -/
lemma save_fileName (h : Spelled 'a' 'z' container) (directory : Path) (report : PartitionReport) :
    FileTree.save (directory.join (fileName container)) report.data =
      FileTree.write (directory.join (fileName container)) (Json.print report.data ++ "\n") := by
  have hname : fileName container = "build_flags_" ++ container ++ "." ++ "json" := by
    rw [String.append_assoc]
    rfl
  have hstem : "build_flags_" ++ container ≠ "" := by
    simp [← String.toList_inj]
  have hextension := Path.fileExtension_join (isComponent_fileName h) directory hname hstem
    (by decide)
  have hjson : "json".toLower = "json" := by
    have hword : "json".toLower.toList = "json".toList.map Char.toLower := String.toList_map
    rw [← String.toList_inj, hword]
    decide
  have hpath := Format.ofPath_json hextension hjson
  rw [FileTree.save, renderFile_json hpath (plain_data report)]
  rfl

/-- **One file for each partition.**  Writing the partitions puts their files into the directory,
one after the other, and gives their paths. -/
lemma writeAll_eq (hcontainers : ∀ container ∈ resolved.partitions.names, Spelled 'a' 'z' container)
    (hsorted : ∀ container report, resolved.partitions.get? container = some report →
      report.sortByName = report) (directory : Path) :
    writeAll resolved directory = (do
      Workspace.onTree (Output.putAll (files resolved directory))
      return (files resolved directory).map Output.path) := by
  let put (entry : String × PartitionReport) : FileTree.Action Unit :=
    FileTree.write (directory.join (fileName entry.1)) (Json.print entry.2.data ++ "\n")
  have hput : writeAll resolved directory = resolved.partitions.entries.mapM fun entry => do
      Workspace.onTree (put entry)
      return directory.join (fileName entry.1) := by
    refine mapM_congr_of_mem fun entry hentry => ?_
    have hcontainer := hcontainers entry.1 (List.mem_map_of_mem hentry)
    simp only [put, hsorted entry.1 entry.2 (NameMap.mem_entries.mp hentry),
      save_fileName hcontainer]
  have hfiles : Output.putAll (files resolved directory) = resolved.partitions.entries.forM put :=
    List.forM_map
  have hpaths : (files resolved directory).map Output.path =
      resolved.partitions.entries.map fun entry => directory.join (fileName entry.1) :=
    List.map_map
  rw [hput, hfiles, hpaths]
  exact Workspace.mapM_onTree _ put _

/-- The files have different paths, since identifiers are different file names. -/
lemma nodup_files (hcontainers : ∀ container ∈ resolved.partitions.names, Spelled 'a' 'z' container)
    (directory : Path) : ((files resolved directory).map Output.path).Nodup := by
  have hpaths : (files resolved directory).map Output.path =
      resolved.partitions.names.map fun container => directory.join (fileName container) := by
    rw [NameMap.names, files, List.map_map, List.map_map]
    rfl
  rw [hpaths]
  refine List.Nodup.map_on (fun first hfirst second hsecond heq => ?_)
    resolved.partitions.nodup_names
  have hname := Path.eq_of_join_eq (isComponent_fileName (hcontainers first hfirst))
    (isComponent_fileName (hcontainers second hsecond)) heq
  exact eq_of_fileName_eq hname

lemma isNameIn_files (hcontainers : ∀ container ∈ resolved.partitions.names,
      Spelled 'a' 'z' container) {directory : Path} :
    ∀ path ∈ (files resolved directory).map Output.path, directory.IsNameIn path := by
  intro path hpath
  obtain ⟨output, houtput, rfl⟩ := List.mem_map.mp hpath
  obtain ⟨⟨container, report⟩, hentry, rfl⟩ := List.mem_map.mp houtput
  have hcomponent := isComponent_fileName (hcontainers container (List.mem_map_of_mem hentry))
  exact ⟨fileName container, hcomponent.toFlat, hcomponent.ne_empty, rfl⟩

/-- Every file holds the report of its partition. -/
lemma heldIn_files
    (hcontainers : ∀ container ∈ resolved.partitions.names, Spelled 'a' 'z' container)
    {directory : Path} {tree after : FileTree} (h : tree.Closed)
    (hrun : (Output.putAll (files resolved directory)).run tree = (.ok (), after)) :
    ∃ here, Output.HeldIn (files resolved directory) here tree after ∧
      ∀ container report, resolved.partitions.get? container = some report →
        after.node? (FileTree.childOf here (fileName container)) =
          some (.file (some (Json.print report.data ++ "\n"))) ∧
        (after.exists (directory.join (fileName container)) = true →
          after.read (directory.join (fileName container)) =
            .ok (Json.print report.data ++ "\n")) := by
  have hwritten : ∀ output ∈ files resolved directory, output.whenChanged = true →
      tree.Unlinked output.path := by
    intro output houtput hchanged
    obtain ⟨entry, -, rfl⟩ := List.mem_map.mp houtput
    cases hchanged
  obtain ⟨here, hheld⟩ := Output.exists_heldIn_of_putAll h hrun hwritten
    (isNameIn_files hcontainers) (nodup_files hcontainers directory)
  refine ⟨here, hheld, fun container report hreport => ?_⟩
  have houtput : ⟨directory.join (fileName container), Json.print report.data ++ "\n", false⟩ ∈
      files resolved directory :=
    List.mem_map.mpr ⟨(container, report), NameMap.mem_entries.mpr hreport, rfl⟩
  have hcontainer := hcontainers container (NameMap.mem_names.mpr ⟨report, hreport⟩)
  have hcomponent := isComponent_fileName hcontainer
  have hnode := hheld.node?_eq _ houtput
  rw [FileTree.nameOf_join hcomponent.toFlat hcomponent.ne_empty] at hnode
  exact ⟨hnode, hheld.read_eq _ houtput⟩

end PartitionReport

/-! ### The partitions of a fragment -/

namespace Makefile

open Registry

variable {registry : Registry} {name : String}

/-- What is assigned for the partitions has the members of the reports, and besides them only flags
that are redacted. -/
def MatchesReports (resolved : Resolved) (above : List (String × String)) : Prop :=
  ∀ container, (∃ key flag, resolved.flags.get? key = some flag ∧
    container ∈ flag.declaration.containers) →
      ∃ line, above.filter (fun a => a.1 = "_ALL_RELEASE_FLAGS.PARTITIONS." ++ container) =
          [("_ALL_RELEASE_FLAGS.PARTITIONS." ++ container, line)] ∧
        ((resolved.partitions.get? container).map PartitionReport.names).getD [] =
          (Words.ofLine line).filter fun key => !resolved.flags.hides key

/-- One setting is about a container that a flag lists. -/
lemma WellSpelled.filter_settings_partition (h : WellSpelled flags)
    (hflag : flags.get? key = some flag) (hmem : container ∈ flag.declaration.containers) :
    (settings flags).filter (fun a => a.1 = "_ALL_RELEASE_FLAGS.PARTITIONS." ++ container) =
      [("_ALL_RELEASE_FLAGS.PARTITIONS." ++ container,
        Words.toLine (membersOf flags container))] := by
  have hget : (partitions flags).get? container = some (membersOf flags container) := by
    have hmember : key ∈ membersOf flags container := mem_membersOf.mpr ⟨flag, hflag, hmem⟩
    rw [indexes_partitions, if_neg (List.ne_nil_of_mem hmember), id]
  have hpartitions : ((partitions flags).entries.map fun entry =>
      ("_ALL_RELEASE_FLAGS.PARTITIONS." ++ entry.1, Words.toLine entry.2)).filter
        (fun a => a.1 = "_ALL_RELEASE_FLAGS.PARTITIONS." ++ container) =
      [("_ALL_RELEASE_FLAGS.PARTITIONS." ++ container,
        Words.toLine (membersOf flags container))] := by
    have hname (partition : String) : "_ALL_RELEASE_FLAGS.PARTITIONS." ++ partition =
        "_ALL_RELEASE_FLAGS.PARTITIONS." ++ container ↔ partition = container := by
      rw [← String.toList_inj, String.toList_append, String.toList_append,
        List.append_cancel_left_eq, String.toList_inj]
    have hfilter := NameMap.filter_entries hget
    rw [List.filter_map]
    simp only [Function.comp_def, hname, hfilter, List.map_cons, List.map_nil]
  have hmetadata : (metadataVariables flags).entries.filter
      (fun a => a.1 = "_ALL_RELEASE_FLAGS.PARTITIONS." ++ container) = [] := by
    refine List.filter_eq_nil_iff.mpr fun ⟨var, value⟩ ha => ?_
    obtain ⟨other, found, suffix, -, htells, rfl⟩ :=
      get?_metadataVariables.mp (NameMap.mem_entries.mp ha)
    -- a partition is no suffix
    have hsuffix := isMetadata_of_tells htells other
    simp only [decide_eq_true_eq]
    intro heq
    rw [heq, ← variableOf_partitions, isMetadata_partition (h.containers key flag hflag _ hmem)]
      at hsuffix
    cases hsuffix
  have hlist : "_ALL_RELEASE_FLAGS" ≠ "_ALL_RELEASE_FLAGS.PARTITIONS." ++ container := by
    rw [← variableOf_partitions]
    exact (variableOf_ne _ _).symm
  rw [settings, List.filter_append, List.filter_append, hpartitions, hmetadata]
  simp [hlist]

/-- The settings for a config are about the same partitions as its reports. -/
lemma matchesReports_settings (hspelled : WellSpelled resolved.flags)
    (hnamed : ∀ key flag, resolved.flags.get? key = some flag → flag.name = key)
    (hpartitions : resolved.partitions = partitionsOf resolved.flags) :
    MatchesReports resolved (settings resolved.flags) := by
  rintro container ⟨key, flag, hflag, hmem⟩
  refine ⟨_, hspelled.filter_settings_partition hflag hmem, ?_⟩
  have hmembers : ∀ member ∈ membersOf resolved.flags container, member ∈ resolved.flags.names := by
    intro member hmember
    obtain ⟨found, hfound, -⟩ := mem_membersOf.mp hmember
    exact NameMap.mem_names.mpr ⟨found, hfound⟩
  rw [hspelled.ofLine_toLine hmembers, ← shownIn, hpartitions]
  cases hget : (partitionsOf resolved.flags).get? container with
  | some report => exact names_of_get? hnamed hget
  | none =>
    -- without a report nothing is shown
    rw [lists_partitionsOf] at hget
    split at hget
    · next hnone =>
      have hnil : (resolved.flags.values.flatMap fun flag => flag.reportsIn container) = [] := hnone
      rw [← map_name_reportsIn hnamed, hnil]
      rfl
    · cases hget

/-- The fragment of a config that exports nothing can be rendered. -/
lemma render_of_extraNames (h : registry.Coherent)
    (hr : ((generate name).run registry).1 = .ok resolved) (hnone : extraNames resolved = [])
    (target : String) :
    ((render name target).run registry).1 = .ok (text registry resolved [] target) := by
  rw [h.generate_eq] at hr
  rw [(answers_render h name target).fst_run h]
  refine bind_eq_ok.mpr ⟨resolved, hr, ?_⟩
  rw [hnone]
  rfl

end Makefile

namespace Registry

variable {registry : Registry} {name : String}

/-- The partitions of what a name resolves to are those of its flags. -/
lemma Reached.partitions_eq (h : registry.Reached) (hr : registry.resolution name = .ok resolved) :
    resolved.partitions = partitionsOf resolved.flags ∧
      ∀ key flag, resolved.flags.get? key = some flag → flag.name = key := by
  rw [← h.coherent.generate_eq] at hr
  obtain ⟨config, -, hc, houtcome⟩ := h.coherent.exists_of_generate hr
  have hresolves := h.coherent.resolves hc houtcome
  exact ⟨hresolves.partitions_eq, hresolves.sameDeclarations.named fun _ _ => h.flags_named⟩

lemma Reached.mem_partitions (h : registry.Reached) (hr : registry.resolution name = .ok resolved)
    (container : String) : container ∈ resolved.partitions.names ↔ ∃ key flag,
      resolved.flags.get? key = some flag ∧ flag.redacted = false ∧
        container ∈ flag.declaration.containers := by
  rw [(h.partitions_eq hr).1]
  exact mem_names_partitionsOf

lemma Reached.listsExactly (h : registry.Reached) (hr : registry.resolution name = .ok resolved)
    (hget : resolved.partitions.get? container = some report) :
    report.ListsExactly resolved.flags container := by
  obtain ⟨hpartitions, hnamed⟩ := h.partitions_eq hr
  rw [hpartitions] at hget
  exact listsExactly_of_get? hnamed hget

/-- Partitions are identifiers, as all containers are. -/
lemma Reached.spelled_partitions (h : registry.Reached)
    (hr : registry.resolution name = .ok resolved) :
    ∀ container ∈ resolved.partitions.names, Spelled 'a' 'z' container := by
  intro container hmem
  obtain ⟨key, flag, hflag, -, hmem⟩ := (h.mem_partitions hr container).mp hmem
  exact (h.spelled hr hflag).2 container hmem

lemma Reached.writeAll_eq (h : registry.Reached) (hr : registry.resolution name = .ok resolved)
    (directory : Path) : PartitionReport.writeAll resolved directory = (do
      Workspace.onTree (Output.putAll (PartitionReport.files resolved directory))
      return (PartitionReport.files resolved directory).map Output.path) :=
  PartitionReport.writeAll_eq (h.spelled_partitions hr)
    (fun _ _ hget => (h.listsExactly hr hget).sortByName_eq) directory

end Registry

/-- A config directory with a flag that lists its container twice, and one that the config
redacts. -/
def Source.partitioned : Source where
  tree := {
    nodes := ⟨[
      ("/d", .directory),
      ("/d/flag_declarations", .directory),
      ("/d/flag_declarations/F.toml",
        .file (some "name='F'\nnamespace=''\ncontainers=['vendor','vendor']")),
      ("/d/flag_declarations/G.toml",
        .file (some "name='G'\nnamespace=''\nworkflow='MANUAL'\ncontainers=['vendor']")),
      ("/d/flag_values", .directory),
      ("/d/flag_values/a", .directory),
      ("/d/flag_values/a/G.toml", .file (some "name='G'\nredacted=true")),
      ("/d/release_config_map.toml", .file (some "")),
      ("/d/release_configs", .directory),
      ("/d/release_configs/a.toml", .file (some "name='a'"))], by
        unfold Increasing
        decide +kernel⟩
    workingDirectory := "" }
  root := ⟨""⟩

/-- An output directory that is reached through a link, and in it a link in the place of an output,
to another file. -/
def FileTree.linkedOut : FileTree where
  nodes := ⟨[
    ("/out", .link "real"),
    ("/real", .directory),
    ("/real/build_flags_vendor.json", .link "kept.json"),
    ("/real/kept.json", .file (some "old"))], by
      unfold Increasing
      decide +kernel⟩
  workingDirectory := ""

namespace Registry

end Registry

end ReleaseFlags
