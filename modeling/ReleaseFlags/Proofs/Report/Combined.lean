import ReleaseFlags.Proofs.Registry.Contents
import ReleaseFlags.Proofs.Registry.WellFormed
import ReleaseFlags.Proofs.Resolution.Merges
import ReleaseFlags.Report.Write

/-!
# The combined report is complete

Reporting on all configs resolves each of them and then looks the results up by name.  When all of
them resolve, each report is the one that its config gets when it is resolved alone
(`Coherent.combined_eq_ok`), and all configs are remembered, so that their contributions can be
reported too (`Coherent.exists_ofRegistry`).  The map files are kept by config directory, and no
directory comes twice in a scan, so none is lost (`maps_of_scan`).
-/

namespace ReleaseFlags

namespace Registry

variable {registry after : Registry} {config : ReleaseConfig} {resolved : Resolved}
  {name target : String} {report : CombinedReport}

/-- The report is the one that its config gets when it is resolved alone, with nothing
remembered. -/
def ReportsAlone (registry : Registry) (report : ReleaseReport) : Prop :=
  ∃ resolved, ((generate report.name).run registry.forget).1 = .ok resolved ∧
    resolved.report = report

lemma Coherent.resolution_of_forget (h : registry.Coherent) (name : String) :
    ((generate name).run registry.forget).1 = registry.resolution name := by
  rw [h.forget.generate_eq, Registry.forget, resolution_withCache]

lemma report_name_of_freeze {working : Working} {inherits : List String}
    (h : working.freeze registry config inherits = .ok resolved) :
    resolved.report.name = config.name := by
  obtain ⟨-, -, h⟩ := bind_eq_ok.mp h
  cases h
  rfl

/-- The report of a resolved config is named after the config. -/
lemma Coherent.report_name (h : registry.Coherent) (hc : registry.Has config)
    (hr : registry.resolution config.name = .ok resolved) : resolved.report.name = config.name := by
  rw [← h.generate_eq, generate_fst (h.configStrict_self hc)] at hr
  obtain ⟨s⟩ := h.stages hc hr
  exact report_name_of_freeze s.resolved_eq

lemma Coherent.reportsAlone (h : registry.Coherent) (hname : name ∈ registry.configs.names)
    (hr : registry.resolution name = .ok resolved) :
    resolved.report.name = name ∧ registry.ReportsAlone resolved.report := by
  obtain ⟨config, hconfig⟩ := NameMap.mem_names.mp hname
  have hc : registry.Has config := has_of_get? h.named hconfig
  obtain rfl := h.named name config hconfig
  have hreport := h.report_name hc hr
  refine ⟨hreport, resolved, ?_, rfl⟩
  rw [hreport, h.resolution_of_forget, hr]

lemma forM_resolution_eq_ok {names : List String} :
    (names.forM fun name => do let _ ← registry.resolution name : Except Error PUnit) = .ok () ↔
      ∀ name ∈ names, ∃ resolved, registry.resolution name = .ok resolved := by
  refine forM_eq_ok.trans (forall₂_congr fun name _ => bind_eq_ok.trans ?_)
  exact exists_congr fun _ => and_iff_left rfl

/-- When reporting on all configs succeeds, and what it gives. -/
lemma combined_eq_ok : registry.combined target = .ok report ↔
    (∀ name ∈ registry.configs.names, ∃ resolved, registry.resolution name = .ok resolved) ∧
      ∃ config first others, registry.config target = .ok config ∧
        registry.resolution config.name = .ok first ∧
        (registry.configs.names.filter (· ≠ config.name)).mapM registry.resolution = .ok others ∧
        report = ⟨first.report, others.map Resolved.report,
          NameMap.ofList (registry.maps.map fun loaded => (loaded.directory, loaded.map))⟩ := by
  constructor
  · intro h
    obtain ⟨_, hall, h⟩ := bind_eq_ok.mp h
    obtain ⟨config, hconfig, h⟩ := bind_eq_ok.mp h
    obtain ⟨first, hfirst, h⟩ := bind_eq_ok.mp h
    obtain ⟨others, hothers, h⟩ := bind_eq_ok.mp h
    cases h
    exact ⟨forM_resolution_eq_ok.mp hall, config, first, others, hconfig, hfirst, hothers, rfl⟩
  · rintro ⟨hall, config, first, others, hconfig, hfirst, hothers, rfl⟩
    refine bind_eq_ok.mpr ⟨(), forM_resolution_eq_ok.mpr hall, ?_⟩
    refine bind_eq_ok.mpr ⟨config, hconfig, bind_eq_ok.mpr ⟨first, hfirst, ?_⟩⟩
    exact bind_eq_ok.mpr ⟨others, hothers, rfl⟩

/-- Reporting on all configs succeeds exactly if all of them resolve and the target leads to one. -/
lemma Coherent.exists_combined_iff (h : registry.Coherent) :
    (∃ report, registry.combined target = .ok report) ↔
      (∀ name ∈ registry.configs.names, ∃ resolved, registry.resolution name = .ok resolved) ∧
        ∃ config, registry.config target = .ok config := by
  constructor
  · rintro ⟨report, hreport⟩
    obtain ⟨hall, config, -, -, hconfig, -⟩ := combined_eq_ok.mp hreport
    exact ⟨hall, config, hconfig⟩
  · rintro ⟨hall, config, hconfig⟩
    obtain ⟨first, hfirst⟩ := hall config.name (has_of_lookup h.named hconfig).mem_names
    obtain ⟨others, hothers⟩ : ∃ others,
        (registry.configs.names.filter (· ≠ config.name)).mapM registry.resolution = .ok others :=
      exists_mapM_eq_ok fun name hname => hall name (List.mem_filter.mp hname).1
    exact ⟨_, combined_eq_ok.mpr ⟨hall, config, first, others, hconfig, hfirst, hothers, rfl⟩⟩

/-! ### The reports -/

/-- The combined report has the report of every config, each of them once. -/
structure ReportsAll (registry : Registry) (target : String) (report : CombinedReport) : Prop where
  /-- The first report is that of the config that the target leads to. -/
  target_name : ∃ config, registry.config target = .ok config ∧ report.target.name = config.name
  target_alone : registry.ReportsAlone report.target
  /-- The others are all other configs. -/
  others_names : report.others.map ReleaseReport.name =
    registry.configs.names.filter (· ≠ report.target.name)
  others_increase : (report.others.map ReleaseReport.name).Pairwise (· < ·)
  others_alone : ∀ other ∈ report.others, registry.ReportsAlone other

lemma Coherent.reportsAll (h : registry.Coherent) (hr : registry.combined target = .ok report) :
    registry.ReportsAll target report := by
  obtain ⟨-, config, first, others, hconfig, hfirst, hothers, rfl⟩ := combined_eq_ok.mp hr
  obtain ⟨hname, halone⟩ := h.reportsAlone (has_of_lookup h.named hconfig).mem_names hfirst
  have hmem (name : String) (hname : name ∈ registry.configs.names.filter (· ≠ config.name)) :
      name ∈ registry.configs.names := (List.mem_filter.mp hname).1
  have hnames : (others.map Resolved.report).map ReleaseReport.name =
      registry.configs.names.filter (· ≠ first.report.name) := by
    rw [List.map_map, hname, ← List.map_id (registry.configs.names.filter _)]
    exact map_eq_of_mapM hothers fun name hfilter _ hr => (h.reportsAlone (hmem name hfilter) hr).1
  refine ⟨⟨config, hconfig, hname⟩, halone, hnames, ?_, fun other hother => ?_⟩
  · rw [hnames]
    exact registry.configs.pairwise_names.filter _
  · obtain ⟨resolved, hresolved, rfl⟩ := List.mem_map.mp hother
    obtain ⟨name, hfilter, hr⟩ := exists_of_mem_mapM hothers hresolved
    exact (h.reportsAlone (hmem name hfilter) hr).2

/-! ### Map files -/

/-- The combined report has the map files of the config directories, each of them under its
directory. -/
structure HasMaps (source : Source) (directories : List String) (registry : Registry)
    (report : CombinedReport) : Prop where
  mem_names : ∀ display, display ∈ report.maps.names ↔ display ∈ registry.directories
  maps_iff : ∀ display map, report.maps.get? display = some map ↔ ∃ name ∈ directories,
    display = (source.directory name).display.text ∧
      source.load DirectoryMap.decode ((source.directory name).entry .map) = .ok map

/-- Since no directory comes twice, each one has the map file that was read from it. -/
lemma hasMaps_of_scan {source : Source} {directories : List String} {scanned : Registry}
    (hscan : source.scan directories = .ok scanned) (hmaps : registry.maps = scanned.maps)
    (hdirectories : registry.directories = scanned.directories)
    (hr : registry.combined target = .ok report) :
    HasMaps source directories registry report := by
  obtain ⟨-, config, first, others, -, -, -, rfl⟩ := combined_eq_ok.mp hr
  obtain ⟨hread, hshown⟩ := maps_of_scan hscan
  let entries := registry.maps.map fun loaded => (loaded.directory, loaded.map)
  have hkeys : entries.map Prod.fst = registry.directories := by
    rw [hdirectories, hshown, List.map_map, hmaps]
    rfl
  have hnodup : (entries.map Prod.fst).Nodup := by
    rw [hkeys, hdirectories]
    exact (indexed_of_scan hscan).directories_nodup
  refine ⟨fun display => ?_, fun display map => ?_⟩
  · rw [NameMap.mem_names, ← hkeys]
    simp only [NameMap.get?_ofList hnodup, List.mem_map, Prod.exists, exists_and_right,
      exists_eq_right, entries]
  · rw [NameMap.get?_ofList hnodup, List.mem_map, hmaps]
    constructor
    · rintro ⟨loaded, hloaded, heq⟩
      obtain ⟨name, hname, hmap⟩ := exists_of_mem_mapM hread hloaded
      obtain ⟨hdirectory, hload⟩ := Source.mapIn_eq_ok hmap
      cases heq
      exact ⟨name, hname, hdirectory, hload⟩
    · rintro ⟨name, hname, rfl, hload⟩
      obtain ⟨loaded, hloaded, hmap⟩ := exists_mem_of_mapM hread hname
      obtain ⟨hdirectory, hfound⟩ := Source.mapIn_eq_ok hmap
      obtain rfl : map = loaded.map := Except.ok.inj (hload.symm.trans hfound)
      exact ⟨loaded, hloaded, by rw [hdirectory]⟩

/-! ### Contributions -/

/-- Each config is listed once, by name, with the directories that may give it values. -/
structure ListsContributions (registry : Registry) (contributions : ContributionReports) :
    Prop where
  names_eq : contributions.reports.map ContributionReport.name = registry.configs.names
  directories_eq : ∀ entry ∈ contributions.reports, ∃ report : ReleaseReport,
    registry.ReportsAlone report ∧ report.name = entry.name ∧
      entry.directories = report.valueDirectories

/-- After a report on all configs that succeeds, all of them are remembered. -/
lemma Coherent.exists_resolvedStrict_of_generateAll (h : registry.Coherent)
    (hrun : (generateAll target).run registry = (.ok report, after))
    (hname : name ∈ registry.configs.names) :
    ∃ resolved, after.resolvedStrict name = .ok resolved := by
  rw [generateAll, run_get_bind] at hrun
  obtain ⟨_, between, hall, hrun⟩ := exists_of_run_bind_eq_ok hrun
  obtain ⟨resolved, hr⟩ := exists_resolvedStrict_of_forM h hall hname
  -- what follows reads what is remembered, and changes nothing
  rw [run_get_bind, run_liftExcept_bind] at hrun
  split at hrun
  · rw [run_liftExcept_bind] at hrun
    split at hrun
    · rw [run_liftExcept_bind] at hrun
      split at hrun
      · cases hrun
        exact ⟨resolved, hr⟩
      · cases hrun
    · cases hrun
  · cases hrun

/-- What is remembered of all configs lists their contributions. -/
lemma Coherent.exists_ofRegistry (h : registry.Coherent) {cache : Cache}
    (hsound : registry.Sound cache) (hall : ∀ name ∈ registry.configs.names,
      ∃ resolved, (registry.withCache cache).resolvedStrict name = .ok resolved) :
    ∃ contributions, ContributionReports.ofRegistry (registry.withCache cache) =
      .ok contributions ∧ registry.ListsContributions contributions := by
  have hremembered (config : ReleaseConfig) (hconfig : config ∈ registry.configs.values) :
      ∃ resolved, (registry.withCache cache).resolved? config.name = some resolved ∧
        resolved.report.name = config.name ∧ registry.ReportsAlone resolved.report := by
    have hname := ((mem_values_configs h.named).mp hconfig).mem_names
    obtain ⟨resolved, hr⟩ := hall config.name hname
    have hanew := (h.withCache hsound).resolution_eq hr
    rw [resolution_withCache] at hanew
    refine ⟨resolved, ?_, h.reportsAlone hname hanew⟩
    obtain ⟨found, hfound, hget⟩ := resolvedStrict_eq_ok.mp hr
    simp only [resolved?, hfound, hget]
  let entry (config : ReleaseConfig) : ContributionReport :=
    ⟨config.name, (((registry.withCache cache).resolved? config.name).map
      fun resolved => resolved.report.valueDirectories).getD []⟩
  refine ⟨⟨registry.configs.values.map entry⟩, bind_eq_ok.mpr ⟨_, mapM_eq_map fun config hconfig =>
    ?_, rfl⟩, ?_, ?_⟩
  · obtain ⟨resolved, hr, -⟩ := hremembered config hconfig
    simp only [hr, entry]
    rfl
  · rw [List.map_map]
    exact NameMap.map_values h.named
  · intro _ hentry
    obtain ⟨config, hconfig, rfl⟩ := List.mem_map.mp hentry
    obtain ⟨resolved, hr, hname, halone⟩ := hremembered config hconfig
    exact ⟨resolved.report, halone, hname, by simp only [hr, entry]; rfl⟩

/-! ### Reporting on all configs -/

/-- Whatever was done with a registry from a scan before, reporting on all configs succeeds exactly
if each of them resolves and the target leads to one.  Then the report is complete, and the
contributions of all configs can be reported. -/
theorem generateAll_of_scan {source : Source} {directories : List String} {scanned : Registry}
    (hscan : source.scan directories = .ok scanned) (allowMissing : Bool) (options : Options)
    (calls : List Call) (target : String) :
    let reached := ({ scanned with allowMissing }.setOptions options).after calls
    ((∃ report, ((generateAll target).run reached).1 = .ok report) ↔
      (∀ name ∈ reached.configs.names,
        ∃ resolved, ((generate name).run reached.forget).1 = .ok resolved) ∧
      ∃ config, reached.config target = .ok config) ∧
    ∀ report after, (generateAll target).run reached = (.ok report, after) →
      reached.ReportsAll target report ∧ reached.HasMaps source directories report ∧
      ∃ contributions, ContributionReports.ofRegistry after = .ok contributions ∧
        reached.ListsContributions contributions := by
  intro reached
  have hstart := ((scanned_of_scan hscan).coherent allowMissing).setOptions options
  have h : reached.Coherent := hstart.after calls
  have hkept := hstart.after_forget calls
  obtain ⟨cache, hanswer, hsound, -⟩ := answers_generateAll h target reached.resolved h.sound
  have hrun : (generateAll target).run reached =
      (reached.combined target, reached.withCache cache) := hanswer
  constructor
  · rw [hrun, h.exists_combined_iff]
    simp only [h.resolution_of_forget]
  · intro report after hreport
    have hall (name : String) (hname : name ∈ reached.configs.names) :=
      h.exists_resolvedStrict_of_generateAll hreport hname
    rw [hrun] at hreport
    obtain ⟨hcombined, rfl⟩ := Prod.mk.inj hreport
    have hmaps := congrArg Registry.maps hkept
    have hdirectories := congrArg Registry.directories hkept
    exact ⟨h.reportsAll hcombined, hasMaps_of_scan hscan hmaps hdirectories hcombined,
      h.exists_ofRegistry hsound hall⟩

/-- The report on the layers has all three configs. -/
theorem generateAll_of_scan_layered : Source.layered.scan ["d"] = .ok layers ∧
    ∃ report after contributions, (generateAll "a").run layered = (.ok report, after) ∧
      layered.ReportsAll "a" report ∧ report.others.map ReleaseReport.name = ["p", "v"] ∧
      layered.HasMaps Source.layered ["d"] report ∧
      ContributionReports.ofRegistry after = .ok contributions ∧
      layered.ListsContributions contributions := by
  have hothers : ((generateAll "a").run layered).1.toOption.map
      (fun report => report.others.map ReleaseReport.name) = some ["p", "v"] := by
    decide +kernel
  rcases hrun : (generateAll "a").run layered with ⟨outcome, after⟩
  rw [hrun] at hothers
  cases outcome with
  | error e => cases hothers
  | ok report =>
    obtain ⟨-, hcomplete⟩ := generateAll_of_scan scan_layered false layeredOptions [] "a"
    obtain ⟨hall, hmaps, contributions, hcontributions, hlists⟩ := hcomplete report after hrun
    exact ⟨scan_layered, report, after, contributions, rfl, hall, Option.some.inj hothers, hmaps,
      hcontributions, hlists⟩

end Registry

end ReleaseFlags
