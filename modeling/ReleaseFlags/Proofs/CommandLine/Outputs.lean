import ReleaseFlags.CommandLine.Run
import ReleaseFlags.Proofs.Registry.Names
import ReleaseFlags.Proofs.Report.Emits

/-!
# The outputs of a run

A run looks its release up once and then resolves the config that it leads to again and again, for
each of its outputs, with a cache that grows.  The outputs are still those of one resolution
(`outputs_of_writeOutputs`): they are described by what the registry gives right after the scan
(`Written.Describes`).  No two of them have the same path, since their names begin and end
differently, or have different releases in them: no other config has the name that the user asked
for.
-/

namespace ReleaseFlags

open ReleaseFlags.Path Registry Workspace

variable {arguments : Arguments} {tree : FileTree} {registry : Registry} {config : ReleaseConfig}
  {resolved : Resolved} {name : String} {path : Path}

/-! ### What the outputs are -/

/-- The outputs of a run, by their kind, in the order of writing. -/
structure Written where
  /-- The fragment for the release that the user asked for. -/
  makefile : Output
  /-- The fragments of the other configs. -/
  others : List Output
  partitions : List Output
  reports : List Output
  graphs : List Output

namespace Written

/-- All outputs. -/
def all (written : Written) : List Output :=
  written.makefile :: written.others ++ written.partitions ++ written.reports ++ written.graphs

end Written

namespace Arguments

/-- The outputs are the combined report, with the report of the resolved config in front, and the
contributions of all configs. -/
def ShowsReports (arguments : Arguments) (registry : Registry) (resolved : Resolved)
    (outputs : List Output) : Prop :=
  ∃ report contributions first second,
    ((generateAll arguments.release).run registry).1 = .ok report ∧
      report.target = resolved.report ∧ registry.ListsContributions contributions ∧
      Output.ofData arguments.reportPath report.data = .ok first ∧
      Output.ofData arguments.contributionsPath contributions.data = .ok second ∧
      outputs = [first, second]

end Arguments

/-- The outputs are those of a registry, for a config and what it resolves to. -/
structure Written.Describes (written : Written) (arguments : Arguments) (registry : Registry)
    (config : ReleaseConfig) (resolved : Resolved) : Prop where
  makefile_eq : Makefile.IsFragment registry config.name arguments.release
    (arguments.makefilePath arguments.release) written.makefile
  /-- What the fragment shows is what the config resolves to. -/
  makefile_shows : ∃ extras, Makefile.Behind registry config.name resolved extras ∧
    written.makefile.content = Makefile.text registry resolved extras arguments.release
  others_show : if arguments.allMake then
      List.Forall₂
        (fun name => Makefile.IsFragment registry name name (arguments.makefilePath name))
        (registry.configs.names.filter (· ≠ config.name)) written.others
    else written.others = []
  partitions_eq : written.partitions = PartitionReport.files resolved arguments.outPath
  reports_show : if arguments.json then arguments.ShowsReports registry resolved written.reports
    else written.reports = []
  graphs_show : if arguments.inheritance then
      written.graphs = [⟨arguments.graphPath, InheritanceGraph.render registry, false⟩]
    else written.graphs = []

/-! ### Paths -/

namespace Arguments

lemma spans_makefilePath (arguments : Arguments) (release : String) :
    Spans arguments.outPath 'r' 'k' (arguments.makefilePath release) :=
  ⟨_, "elease_config-".toList ++ arguments.product.toList ++ ['-'] ++ release.toList ++
    ".varm".toList, by simp, by decide, by decide, rfl⟩

lemma spans_reportPath (arguments : Arguments) :
    Spans arguments.outPath 'r' 'n' arguments.reportPath :=
  ⟨_, "elease_config-".toList ++ arguments.product.toList ++ ['-'] ++ arguments.release.toList ++
    ".jso".toList, by simp, by decide, by decide, rfl⟩

lemma spans_contributionsPath (arguments : Arguments) :
    Spans arguments.outPath 'r' 'n' arguments.contributionsPath :=
  ⟨_, "elease_config_contributions-".toList ++ arguments.product.toList ++ ".jso".toList,
    by simp, by decide, by decide, rfl⟩

lemma spans_graphPath (arguments : Arguments) :
    Spans arguments.outPath 'i' 't' arguments.graphPath :=
  ⟨_, "nheritance_graph-".toList ++ arguments.product.toList ++ ".do".toList,
    by simp, by decide, by decide, rfl⟩

lemma flat_append_release (hproduct : Flat arguments.product) {release : String}
    (hrelease : Flat release) :
    Flat ("release_config-" ++ arguments.product ++ "-" ++ release) :=
  ((Flat.append ⟨by decide, by decide⟩ hproduct).append ⟨by decide, by decide⟩).append hrelease

lemma isNameIn_makefilePath (hproduct : Flat arguments.product) {release : String}
    (hrelease : Flat release) : arguments.outPath.IsNameIn (arguments.makefilePath release) :=
  isNameIn_join (flat_append_release hproduct hrelease) ⟨by decide, by decide⟩ (by decide) _

lemma isNameIn_reportPath (hproduct : Flat arguments.product) (hrelease : Flat arguments.release) :
    arguments.outPath.IsNameIn arguments.reportPath :=
  isNameIn_join (flat_append_release hproduct hrelease) ⟨by decide, by decide⟩ (by decide) _

lemma isNameIn_contributionsPath (hproduct : Flat arguments.product) :
    arguments.outPath.IsNameIn arguments.contributionsPath := by
  have hname : Flat ("release_config_contributions-" ++ arguments.product) :=
    Flat.append ⟨by decide, by decide⟩ hproduct
  exact isNameIn_join hname ⟨by decide, by decide⟩ (by decide) _

lemma isNameIn_graphPath (hproduct : Flat arguments.product) :
    arguments.outPath.IsNameIn arguments.graphPath := by
  have hname : Flat ("inheritance_graph-" ++ arguments.product) :=
    Flat.append ⟨by decide, by decide⟩ hproduct
  exact isNameIn_join hname ⟨by decide, by decide⟩ (by decide) _

end Arguments

lemma PartitionReport.spans_files {directory : Path}
    (hmem : path ∈ (files resolved directory).map Output.path) : Spans directory 'b' 'n' path := by
  obtain ⟨output, houtput, rfl⟩ := List.mem_map.mp hmem
  obtain ⟨⟨container, report⟩, -, rfl⟩ := List.mem_map.mp houtput
  exact ⟨_, "uild_flags_".toList ++ container.toList ++ ".jso".toList, by simp [fileName],
    by decide, by decide, rfl⟩

namespace Arguments

/-- The name of a config is read back from the path of its fragment. -/
lemma eq_of_makefilePath_eq {release : String} (hname : Flat name)
    (heq : arguments.makefilePath release = arguments.makefilePath name) : release = name := by
  have hends : EndsInName ".varmk" := ⟨".varm".toList, 'k', by decide, by decide, by decide⟩
  have hforward := forward_eq_of_join_eq (hends.append _) (hends.append _) heq
  refine hname.eq_of_forward_eq ?_
  simpa [forward] using hforward

/-- The fragments of other configs do not overwrite each other, nor the one for the release: the
name that the user asked for is no other config's own name. -/
lemma nodup_makefilePaths (h : registry.Coherent) (hflat : registry.FlatNames)
    (hconfig : registry.config arguments.release = .ok config) :
    (arguments.makefilePath arguments.release ::
      (registry.configs.names.filter (· ≠ config.name)).map arguments.makefilePath).Nodup := by
  rw [List.nodup_cons]
  constructor
  · intro hmem
    obtain ⟨name, hname, hpath⟩ := List.mem_map.mp hmem
    obtain ⟨hname, hne⟩ := List.mem_filter.mp hname
    have hrelease := eq_of_makefilePath_eq (hflat name hname) hpath.symm
    obtain ⟨found, hfound⟩ := NameMap.mem_names.mp hname
    obtain rfl := h.named name found hfound
    rw [hrelease, Registry.config, h.lookup_self hfound] at hconfig
    obtain rfl := Except.ok.inj hconfig
    simp at hne
  · refine List.Nodup.map_on (fun first hfirst second hsecond heq => ?_)
      (registry.configs.nodup_names.filter _)
    exact eq_of_makefilePath_eq (hflat second (List.mem_filter.mp hsecond).1) heq

end Arguments

lemma Output.path_of_ofData {data : Data} {output : Output}
    (h : Output.ofData path data = .ok output) : output.path = path := by
  obtain ⟨content, -, h⟩ := bind_eq_ok.mp h
  cases h
  rfl

lemma Arguments.ShowsReports.map_path {outputs : List Output}
    (h : arguments.ShowsReports registry resolved outputs) :
    outputs.map Output.path = [arguments.reportPath, arguments.contributionsPath] := by
  obtain ⟨_, _, first, second, -, -, -, hfirst, hsecond, rfl⟩ := h
  rw [List.map_cons, List.map_cons, Output.path_of_ofData hfirst, Output.path_of_ofData hsecond]
  rfl

lemma Makefile.map_path_of_isFragment {pathOf : String → Path} {names : List String}
    {outputs : List Output}
    (h : List.Forall₂ (fun name => IsFragment registry name name (pathOf name)) names outputs) :
    outputs.map Output.path = names.map pathOf := by
  induction h with
  | nil => rfl
  | cons hfragment _ ih => rw [List.map_cons, List.map_cons, hfragment.path_eq, ih]

/-- The combined report and the contributions have different names. -/
lemma Arguments.reportPath_ne (arguments : Arguments) :
    arguments.reportPath ≠ arguments.contributionsPath := by
  have hends : EndsInName ".json" := ⟨".jso".toList, 'n', by decide, by decide, by decide⟩
  intro heq
  have hforward := forward_eq_of_join_eq (hends.append _) (hends.append _) heq
  simp [forward] at hforward

namespace Written

variable {written : Written}

lemma Describes.allSpan_makefiles (hd : written.Describes arguments registry config resolved)
    (h : registry.Coherent) (hflat : registry.FlatNames)
    (hconfig : registry.config arguments.release = .ok config) :
    AllSpan arguments.outPath 'r' 'k' ((written.makefile :: written.others).map Output.path) := by
  have hnodup := Arguments.nodup_makefilePaths h hflat hconfig
  rw [List.map_cons, hd.makefile_eq.path_eq]
  have hothers := hd.others_show
  split at hothers
  · rw [Makefile.map_path_of_isFragment hothers]
    refine ⟨hnodup, fun p hp => ?_⟩
    rw [← List.map_cons] at hp
    obtain ⟨release, -, rfl⟩ := List.mem_map.mp hp
    exact arguments.spans_makefilePath release
  · rw [hothers]
    exact (arguments.spans_makefilePath _).allSpan

lemma Describes.allSpan_partitions (hd : written.Describes arguments registry config resolved)
    (hcontainers : ∀ container ∈ resolved.partitions.names, Spelled 'a' 'z' container) :
    AllSpan arguments.outPath 'b' 'n' (written.partitions.map Output.path) := by
  rw [hd.partitions_eq]
  exact ⟨PartitionReport.nodup_files hcontainers _, fun p => PartitionReport.spans_files⟩

lemma Describes.allSpan_reports (hd : written.Describes arguments registry config resolved) :
    AllSpan arguments.outPath 'r' 'n' (written.reports.map Output.path) := by
  have hreports := hd.reports_show
  split at hreports
  · rw [hreports.map_path]
    refine ⟨by simpa using arguments.reportPath_ne, ?_⟩
    simpa using ⟨arguments.spans_reportPath, arguments.spans_contributionsPath⟩
  · rw [hreports]
    exact allSpan_nil _ _ _

lemma Describes.allSpan_graphs (hd : written.Describes arguments registry config resolved) :
    AllSpan arguments.outPath 'i' 't' (written.graphs.map Output.path) := by
  have hgraphs := hd.graphs_show
  split at hgraphs
  · simp only [hgraphs, List.map_cons, List.map_nil]
    exact arguments.spans_graphPath.allSpan
  · rw [hgraphs]
    exact allSpan_nil _ _ _

/-- Outputs of different kinds have names that begin or end differently, and those of one kind
mention different configs or partitions. -/
lemma Describes.nodup_paths (hd : written.Describes arguments registry config resolved)
    (h : registry.Coherent) (hflat : registry.FlatNames)
    (hconfig : registry.config arguments.release = .ok config)
    (hcontainers : ∀ container ∈ resolved.partitions.names, Spelled 'a' 'z' container) :
    (written.all.map Output.path).Nodup := by
  have hmakefiles := hd.allSpan_makefiles h hflat hconfig
  have hpartitions := hd.allSpan_partitions hcontainers
  have hreports := hd.allSpan_reports
  have hgraphs := hd.allSpan_graphs
  rw [all, List.map_append, List.map_append, List.map_append]
  simp only [List.nodup_append, List.mem_append]
  refine ⟨⟨⟨hmakefiles.nodup, hpartitions.nodup, ?_⟩, hreports.nodup, ?_⟩, hgraphs.nodup, ?_⟩
  · intro p hp q hq
    exact (hmakefiles.spans p hp).ne (hpartitions.spans q hq) (by decide)
  · rintro p (hp | hp) q hq
    · exact (hmakefiles.spans p hp).ne (hreports.spans q hq) (by decide)
    · exact (hpartitions.spans p hp).ne (hreports.spans q hq) (by decide)
  · rintro p ((hp | hp) | hp) q hq
    · exact (hmakefiles.spans p hp).ne (hgraphs.spans q hq) (by decide)
    · exact (hpartitions.spans p hp).ne (hgraphs.spans q hq) (by decide)
    · exact (hreports.spans p hp).ne (hgraphs.spans q hq) (by decide)

/-- With a product and a release without slashes, all outputs are names in one directory. -/
lemma Describes.isNameIn_paths (hd : written.Describes arguments registry config resolved)
    (hflat : registry.FlatNames) (hproduct : Flat arguments.product)
    (hrelease : Flat arguments.release)
    (hcontainers : ∀ container ∈ resolved.partitions.names, Spelled 'a' 'z' container) :
    ∀ p ∈ written.all.map Output.path, arguments.outPath.IsNameIn p := by
  have hothers : ∀ p ∈ written.others.map Output.path, arguments.outPath.IsNameIn p := by
    have hothers := hd.others_show
    split at hothers
    · rw [Makefile.map_path_of_isFragment hothers]
      refine List.forall_mem_map.mpr fun name hname => ?_
      exact arguments.isNameIn_makefilePath hproduct (hflat name (List.mem_filter.mp hname).1)
    · simp [hothers]
  have hpartitions : ∀ p ∈ written.partitions.map Output.path, arguments.outPath.IsNameIn p := by
    rw [hd.partitions_eq]
    exact PartitionReport.isNameIn_files hcontainers
  have hreports : ∀ p ∈ written.reports.map Output.path, arguments.outPath.IsNameIn p := by
    have hreports := hd.reports_show
    split at hreports
    · rw [hreports.map_path]
      simpa using ⟨arguments.isNameIn_reportPath hproduct hrelease,
        arguments.isNameIn_contributionsPath hproduct⟩
    · simp [hreports]
  have hgraphs : ∀ p ∈ written.graphs.map Output.path, arguments.outPath.IsNameIn p := by
    have hgraphs := hd.graphs_show
    split at hgraphs
    · simpa [hgraphs] using arguments.isNameIn_graphPath hproduct
    · simp [hgraphs]
  rw [all, List.map_append, List.map_append, List.map_append, List.map_cons]
  simp only [List.forall_mem_append, List.forall_mem_cons]
  refine ⟨⟨⟨⟨?_, hothers⟩, hpartitions⟩, hreports⟩, hgraphs⟩
  rw [hd.makefile_eq.path_eq]
  exact arguments.isNameIn_makefilePath hproduct hrelease

end Written

/-! ### What a run emits -/

namespace Arguments

/-- What is not asked for is not emitted. -/
lemma emits_asked {β : Type} {asked : Bool} {action : Action (List Path)} {P : List Output → Prop}
    {next : List Path → Action β} {Q : β → List Output → Prop}
    (h : Emits registry action fun paths outputs => P outputs ∧ paths = outputs.map Output.path)
    (hnext : ∀ outputs, (if asked then P outputs else outputs = []) →
      Emits registry (next (outputs.map Output.path)) fun b more => Q b (outputs ++ more)) :
    Emits registry (if asked then action >>= next else pure [] >>= next) Q := by
  cases asked with
  | false => exact hnext [] rfl
  | true =>
    refine emits_bind h ?_
    rintro _ outputs ⟨hP, rfl⟩
    exact hnext outputs hP

lemma emits_writeOtherMakefiles (h : registry.Coherent) (arguments : Arguments) (target : String) :
    Emits registry (arguments.writeOtherMakefiles target) fun paths outputs =>
      List.Forall₂
        (fun name => Makefile.IsFragment registry name name (arguments.makefilePath name))
        (registry.configs.names.filter (· ≠ target)) outputs ∧ paths = outputs.map Output.path := by
  refine emits_get_bind fun cache tree _ => emits_mapM (fun name => ?_) _
  refine emits_bind (Makefile.emits_write h name name _) ?_
  rintro _ _ ⟨output, rfl, hfragment⟩
  exact emits_pure ⟨output, rfl, hfragment, hfragment.path_eq.symm⟩

/-- The report in front is that of the config that the release leads to. -/
lemma emits_writeReports (h : registry.Coherent)
    (hconfig : registry.config arguments.release = .ok config)
    (hr : registry.resolution config.name = .ok resolved) :
    Emits registry arguments.writeReports fun paths outputs =>
      arguments.ShowsReports registry resolved outputs ∧ paths = outputs.map Output.path := by
  have hanswers := answers_generateAll h arguments.release
  refine emits_bind (emits_onRegistry hanswers) ?_
  rintro report _ ⟨hreport, rfl⟩
  refine emits_bind (emits_save arguments.reportPath report.data) ?_
  rintro _ _ ⟨first, rfl, hfirst⟩
  refine emits_bind (ContributionReports.emits_write h arguments.contributionsPath) ?_
  rintro _ _ ⟨contributions, second, hlists, rfl, hsecond⟩
  have htarget : report.target = resolved.report := by
    obtain ⟨-, found, front, others, hfound, hfront, -, rfl⟩ := combined_eq_ok.mp hreport
    obtain rfl := Except.ok.inj (hconfig.symm.trans hfound)
    rw [Except.ok.inj (hr.symm.trans hfront)]
  have hshows : arguments.ShowsReports registry resolved [first, second] :=
    ⟨report, contributions, first, second, (hanswers.fst_run h).trans hreport, htarget, hlists,
      hfirst, hsecond, rfl⟩
  exact emits_pure ⟨hshows, hshows.map_path.symm⟩

/-- What a run that succeeds emits for the registry of its scan. -/
lemma emits_writeOutputs (h : registry.Reached) (arguments : Arguments) :
    Emits registry arguments.writeOutputs fun paths outputs => ∃ config resolved written,
      registry.config arguments.release = .ok config ∧
        registry.resolution config.name = .ok resolved ∧
        Written.Describes written arguments registry config resolved ∧
        outputs = written.all ∧ paths = outputs.map Output.path := by
  have hcoherent := h.coherent
  refine emits_get_bind fun cache tree _ => ?_
  refine emits_bind emits_liftExcept ?_
  rintro config _ ⟨hconfig, rfl⟩
  refine emits_bind (Makefile.emits_write hcoherent _ _ _) ?_
  rintro _ _ ⟨makefile, rfl, hmakefile⟩
  obtain ⟨resolved, extras, hbehind, htext⟩ :=
    Makefile.exists_behind hcoherent hmakefile.render_eq
  have hr : registry.resolution config.name = .ok resolved := by
    rw [← hcoherent.generate_eq, hbehind.resolved_eq]
  refine emits_asked (emits_writeOtherMakefiles hcoherent arguments config.name) ?_
  intro others hothers
  refine emits_bind (emits_onRegistry (answers_generate hcoherent config.name)) ?_
  rintro found _ ⟨hfound, rfl⟩
  obtain rfl := Except.ok.inj (hr.symm.trans hfound)
  refine emits_bind (PartitionReport.emits_writeAll h hr arguments.outPath) ?_
  rintro _ partitions ⟨hpartitions, rfl⟩
  refine emits_asked (emits_writeReports hcoherent hconfig hr) ?_
  intro reports hreports
  have hdescribes (graphs : List Output) (hgraphs : if arguments.inheritance then
      graphs = [⟨arguments.graphPath, InheritanceGraph.render registry, false⟩] else graphs = []) :
      Written.Describes ⟨makefile, others, partitions, reports, graphs⟩ arguments registry config
        resolved :=
    ⟨hmakefile, ⟨extras, hbehind, htext⟩, hothers, hpartitions, hreports, hgraphs⟩
  dsimp only
  split
  · next hasked =>
    refine emits_bind (InheritanceGraph.emits_write arguments.graphPath) ?_
    rintro _ _ rfl
    have hgraphs := hdescribes [⟨arguments.graphPath, InheritanceGraph.render registry, false⟩]
      ((if_pos hasked).mpr rfl)
    refine emits_pure ⟨config, resolved, _, hconfig, hr, hgraphs, ?_, ?_⟩
    · simp [Written.all]
    · simp [hmakefile.path_eq]
  · next hasked =>
    have hgraphs := hdescribes [] ((if_neg hasked).mpr rfl)
    refine emits_pure ⟨config, resolved, _, hconfig, hr, hgraphs, ?_, ?_⟩
    · simp [Written.all]
    · simp [hmakefile.path_eq]

/-- A scan reads the config directories and gives the registry its settings. -/
lemma reached_of_scan (hscan : arguments.scan tree = .ok registry) :
    registry.Reached ∧ registry.FlatNames := by
  obtain ⟨directories, -, hscan⟩ := bind_eq_ok.mp hscan
  obtain ⟨scanned, hscanned, hscan⟩ := bind_eq_ok.mp hscan
  obtain rfl := Except.ok.inj hscan
  have hread := mapError_eq_ok.mp hscanned
  have hflat : scanned.FlatNames := flatNames_of_scan hread
  exact ⟨⟨_, directories, scanned, arguments.allowMissing, arguments.options, [], hread, rfl⟩,
    hflat⟩

end Arguments

/-- A config directory with two configs, an alias of one of them and a flag in a partition. -/
def FileTree.aliased : FileTree where
  nodes := ⟨[
    ("/d", .directory),
    ("/d/flag_declarations", .directory),
    ("/d/flag_declarations/F.toml", .file (some "name='F'\nnamespace=''\ncontainers=['vendor']")),
    ("/d/release_config_map.toml", .file (some "[[aliases]]\nname='n'\ntarget='a'")),
    ("/d/release_configs", .directory),
    ("/d/release_configs/a.toml", .file (some "name='a'")),
    ("/d/release_configs/b.toml", .file (some "name='b'"))], by
      unfold Increasing
      decide +kernel⟩
  workingDirectory := ""

namespace Arguments

/-- All outputs for the alias, next to the config directory. -/
def ofAlias : Arguments where
  top := ""
  maps := ["d"]
  release := "n"
  product := "p"
  buildVariant := none
  requireBuildVariant := false
  allowMissing := false
  outDir := ""
  json := true
  allMake := true
  inheritance := true
  list := false
  verbose := false

end Arguments

end ReleaseFlags
