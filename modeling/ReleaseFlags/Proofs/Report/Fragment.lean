import ReleaseFlags.Proofs.Calls
import ReleaseFlags.Proofs.Report.FragmentLines

/-!
# Fragments are read back

Nothing is escaped in a fragment, and still it is read back line by line: below the heading each
line is split where the mark of an assignment occurs first, which is behind the key, and the lines
above it are told apart by their variables.  All that is needed is that no text which is shown has a
line feed (`readsBack_of_render`).
-/

namespace ReleaseFlags

namespace Makefile

variable {registry : Registry} {resolved : Resolved} {extras : List (String × Resolved)}
  {flags : Flags} {name target : String}

/-! ### Reading a fragment -/

/-- All assignments in the lines of a text. -/
def assignments (text : String) : List (String × String) := (lines text).filterMap assignment?

/-- The assignments to variables that tell about flags. -/
def metadataOf (text : String) : List (String × String) :=
  (assignments text).filter fun a => isMetadata a.1

/-- The lines of a text below the heading of the values. -/
def valueLines (text : String) : List String := ((lines text).dropWhile (· ≠ heading)).tail

/-- The flags are read back from the text. -/
structure ReadsBack (text : String) (flags : Flags) : Prop where
  /-- The lines below the heading assign the values, by increasing key. -/
  values_eq : (valueLines text).map assignment? =
    flags.entries.map fun entry => some (entry.1, entry.2.value.marshal)
  keys_increase : (flags.entries.map Prod.fst).Pairwise (· < ·)
  /-- One line lists the keys. -/
  listed_eq : ((assignments text).filter fun a => a.1 = "_ALL_RELEASE_FLAGS").map
    (fun a => Words.ofLine a.2) = [flags.names]
  /-- The metadata variables are sorted, and none is assigned twice. -/
  metadata_increase : ((metadataOf text).map Prod.fst).Pairwise (· < ·)
  /-- They are those of the flags. -/
  metadata_iff : ∀ var value, (var, value) ∈ metadataOf text ↔ ∃ key flag suffix,
    flags.get? key = some flag ∧ Tells flag suffix value ∧ var = variableOf key suffix

/-! ### Sorting the settings -/

/-- The mark and a dot are longer than the mark. -/
lemma variableOf_ne (key suffix : String) : variableOf key suffix ≠ "_ALL_RELEASE_FLAGS" := by
  intro heq
  have hlength := congrArg (fun s => s.toList.length) heq
  simp only [toList_variableOf, mark_dot, List.length_append, List.length_cons] at hlength
  omega

/-- One setting lists the keys. -/
lemma filter_settings_list (flags : Flags) :
    (settings flags).filter (fun a => a.1 = "_ALL_RELEASE_FLAGS") =
      [("_ALL_RELEASE_FLAGS", Words.toLine flags.names)] := by
  have hpartitions : ((partitions flags).entries.map fun entry =>
      ("_ALL_RELEASE_FLAGS.PARTITIONS." ++ entry.1, Words.toLine entry.2)).filter
        (fun a => a.1 = "_ALL_RELEASE_FLAGS") = [] := by
    refine List.filter_eq_nil_iff.mpr fun a ha => ?_
    obtain ⟨entry, -, rfl⟩ := List.mem_map.mp ha
    rw [← variableOf_partitions]
    simp [variableOf_ne]
  have hmetadata : (metadataVariables flags).entries.filter
      (fun a => a.1 = "_ALL_RELEASE_FLAGS") = [] := by
    refine List.filter_eq_nil_iff.mpr fun ⟨var, value⟩ ha => ?_
    obtain ⟨key, flag, suffix, -, -, rfl⟩ :=
      get?_metadataVariables.mp (NameMap.mem_entries.mp ha)
    simp [variableOf_ne]
  rw [settings, List.filter_append, List.filter_append, hpartitions, hmetadata]
  simp

lemma isMetadata_of_tells {flag : FlagState} {suffix value : String} (h : Tells flag suffix value)
    (key : String) : isMetadata (variableOf key suffix) = true := by
  have hsuffix := h.mem_suffixes
  rw [isMetadata, described?_variableOf key ((spelled_of_mem_suffixes hsuffix).notMem (by decide))]
  simp [hsuffix]

/-- A partition is no suffix, since the suffixes are written in capitals. -/
lemma isMetadata_partition {partition : String} (h : Spelled 'a' 'z' partition) :
    isMetadata (variableOf "PARTITIONS" partition) = false := by
  have hsuffix : partition ∉ suffixes := by
    intro hmem
    have hall : ∀ suffix ∈ suffixes, isContainerName suffix = false := by decide
    rw [← isContainerName_iff, hall partition hmem] at h
    cases h
  rw [isMetadata, described?_variableOf _ (h.notMem (by decide))]
  simp [hsuffix]

lemma marked_of_isMetadata {var : String} (h : isMetadata var = true) : Marked var := by
  rw [isMetadata, described?] at h
  cases hstrip : Path.stripFront "_ALL_RELEASE_FLAGS.".toList var.toList with
  | none =>
    rw [hstrip] at h
    cases h
  | some rest =>
    rw [Marked, stripFront_eq_some.mp hstrip, mark_dot, List.append_assoc]
    exact List.prefix_append _ _

/-- The settings that tell about flags are the metadata variables. -/
lemma WellSpelled.filter_settings_isMetadata (h : WellSpelled flags) :
    (settings flags).filter (fun a => isMetadata a.1) = (metadataVariables flags).entries := by
  have hpartitions : ((partitions flags).entries.map fun entry =>
      ("_ALL_RELEASE_FLAGS.PARTITIONS." ++ entry.1, Words.toLine entry.2)).filter
        (fun a => isMetadata a.1) = [] := by
    refine List.filter_eq_nil_iff.mpr fun a ha => ?_
    obtain ⟨entry, hentry, rfl⟩ := List.mem_map.mp ha
    rw [← variableOf_partitions, isMetadata_partition (h.partition (NameMap.mem_entries.mp hentry))]
    exact Bool.false_ne_true
  have hmetadata : (metadataVariables flags).entries.filter (fun a => isMetadata a.1) =
      (metadataVariables flags).entries := by
    refine List.filter_eq_self.mpr fun ⟨var, value⟩ ha => ?_
    obtain ⟨key, flag, suffix, -, htells, rfl⟩ :=
      get?_metadataVariables.mp (NameMap.mem_entries.mp ha)
    exact isMetadata_of_tells htells key
  have hlist : isMetadata "_ALL_RELEASE_FLAGS" = false := by decide
  rw [settings, List.filter_append, List.filter_append, hpartitions, hmetadata]
  simp [hlist]

/-- Keys are read back from the line that lists them. -/
lemma WellSpelled.ofLine_toLine (h : WellSpelled flags) {keys : List String}
    (hkeys : ∀ key ∈ keys, key ∈ flags.names) : Words.ofLine (Words.toLine keys) = keys := by
  refine Words.ofLine_toLine_of_words fun key hmem => ?_
  refine Words.ofLine_of_notMem ?_ (h.key_word key (hkeys key hmem))
  obtain ⟨first, rest, heq, -⟩ := h.key_starts key (hkeys key hmem)
  rintro rfl
  cases heq

/-! ### What is read -/

section Reading

variable (hplain : Plain registry resolved (exportedFlags resolved extras) target)
  (hspelled : WellSpelled (exportedFlags resolved extras))

include hplain hspelled

lemma lines_text : lines (text registry resolved extras target) =
    headLines registry resolved target ++
      assignmentLines (settings (exportedFlags resolved extras)) ++ ["", "", heading] ++
      assignmentLines (valuesOf (exportedFlags resolved extras)) := by
  rw [text_eq_unlines]
  refine lines_unlines ?_
  simp only [List.forall_mem_append]
  refine ⟨⟨⟨hplain.headLines, fun line hline => ?_⟩, by decide⟩, fun line hline => ?_⟩
  · obtain ⟨entry, hentry, rfl⟩ := List.mem_map.mp hline
    exact hspelled.settings_oneLine hplain entry hentry
  · obtain ⟨value, hvalue, rfl⟩ := List.mem_map.mp hline
    obtain ⟨⟨key, flag⟩, hentry, rfl⟩ := List.mem_map.mp hvalue
    have hflag := NameMap.mem_entries.mp hentry
    exact oneLine_assignment (hplain.keys key (NameMap.mem_names.mpr ⟨flag, hflag⟩))
      (hplain.flags key flag hflag _ (by simp [shownOf]))

lemma valueLines_text : valueLines (text registry resolved extras target) =
    assignmentLines (valuesOf (exportedFlags resolved extras)) := by
  have hfront : ∀ line ∈ headLines registry resolved target ++
      assignmentLines (settings (exportedFlags resolved extras)) ++ ["", ""],
      decide (line ≠ heading) = true := by
    simp only [List.forall_mem_append, decide_eq_true_eq]
    exact ⟨⟨headLines_ne_heading, settings_ne_heading⟩, by decide⟩
  have hsplit : lines (text registry resolved extras target) =
      headLines registry resolved target ++
        assignmentLines (settings (exportedFlags resolved extras)) ++ ["", ""] ++
          heading :: assignmentLines (valuesOf (exportedFlags resolved extras)) := by
    rw [lines_text hplain hspelled]
    simp only [List.append_assoc, List.cons_append, List.nil_append]
  rw [valueLines, hsplit, List.dropWhile_append_of_pos hfront, List.dropWhile_cons_of_neg (by simp),
    List.tail_cons]

/-- The marked assignments are those of the settings. -/
lemma filter_assignments {keep : String → Bool} (hkeep : ∀ var, keep var = true → Marked var) :
    (assignments (text registry resolved extras target)).filter (fun a => keep a.1) =
      (settings (exportedFlags resolved extras)).filter fun a => keep a.1 := by
  have hunmarked {ls : List String} (h : ∀ line ∈ ls, ¬ Marked line) :
      (ls.filterMap assignment?).filter (fun a => keep a.1) = [] := by
    rw [List.filter_eq_nil_iff]
    intro a ha hkept
    obtain ⟨line, hline, hread⟩ := List.mem_filterMap.mp ha
    exact h line hline (List.IsPrefix.trans (hkeep a.1 hkept) (prefix_of_assignment? hread))
  have hsettings : (assignmentLines (settings (exportedFlags resolved extras))).filterMap
      assignment? = settings (exportedFlags resolved extras) :=
    filterMap_assignment? hspelled.space_notMem
  have hblank : ∀ line ∈ ["", "", heading], ¬ Marked line := by decide
  rw [assignments, lines_text hplain hspelled]
  simp only [List.filterMap_append, List.filter_append, hunmarked not_marked_headLines, hsettings,
    hunmarked hblank, hunmarked hspelled.not_marked_valuesOf, List.nil_append, List.append_nil]

/-- What a fragment says about flags is read back. -/
lemma readsBack_text : ReadsBack (text registry resolved extras target)
    (exportedFlags resolved extras) where
  values_eq := by
    rw [valueLines_text hplain hspelled, assignmentLines, valuesOf, List.map_map, List.map_map]
    refine List.map_congr_left fun entry hentry => ?_
    exact assignment?_assignment (hspelled.key_word entry.1 (List.mem_map_of_mem hentry)) _
  keys_increase := (exportedFlags resolved extras).pairwise_names
  listed_eq := by
    have hmarked : ∀ var, decide (var = "_ALL_RELEASE_FLAGS") = true → Marked var := by
      intro var hvar
      rw [of_decide_eq_true hvar]
      exact List.prefix_rfl
    have hwords := hspelled.ofLine_toLine fun _ hkey => hkey
    rw [filter_assignments hplain hspelled hmarked, filter_settings_list]
    simp [hwords]
  metadata_increase := by
    rw [metadataOf, filter_assignments hplain hspelled fun _ => marked_of_isMetadata,
      hspelled.filter_settings_isMetadata]
    exact (metadataVariables (exportedFlags resolved extras)).pairwise_names
  metadata_iff := by
    intro var value
    rw [metadataOf, filter_assignments hplain hspelled fun _ => marked_of_isMetadata,
      hspelled.filter_settings_isMetadata, NameMap.mem_entries, get?_metadataVariables]

end Reading

/-! ### Rendered fragments -/

open Registry

/-- The configs behind a fragment: the one of a name, and its extra configs in order. -/
structure Behind (registry : Registry) (name : String) (resolved : Resolved)
    (extras : List (String × Resolved)) : Prop where
  resolved_eq : ((generate name).run registry).1 = .ok resolved
  extras_names : extras.map Prod.fst = extraNames resolved
  extras_eq : ∀ extra ∈ extras, ((generate extra.1).run registry).1 = .ok extra.2

/-- A fragment that is rendered is the text for the configs behind it. -/
lemma exists_behind (h : registry.Coherent) {fragment : String}
    (hrender : ((render name target).run registry).1 = .ok fragment) : ∃ resolved extras,
      Behind registry name resolved extras ∧ fragment = text registry resolved extras target := by
  have hanew : renderAnew registry name target = .ok fragment := by
    rw [← (answers_render h name target).fst_run h, hrender]
  obtain ⟨resolved, hresolved, hanew⟩ := bind_eq_ok.mp hanew
  obtain ⟨extras, hextras, htext⟩ := bind_eq_ok.mp hanew
  obtain rfl := Except.ok.inj htext
  have hextra {extra : String} {found : String × Resolved}
      (hfound : (do return (extra, ← registry.resolution extra) : Except Error _) = .ok found) :
      found.1 = extra ∧ registry.resolution extra = .ok found.2 := by
    obtain ⟨_, hr, hpair⟩ := bind_eq_ok.mp hfound
    cases hpair
    exact ⟨rfl, hr⟩
  refine ⟨resolved, extras, ⟨?_, ?_, fun found hmem => ?_⟩, rfl⟩
  · rw [h.generate_eq, hresolved]
  · rw [← List.map_id (extraNames resolved)]
    exact map_eq_of_mapM hextras fun extra _ found hfound => (hextra hfound).1
  · obtain ⟨extra, -, hfound⟩ := exists_of_mem_mapM hextras hmem
    obtain ⟨rfl, hr⟩ := hextra hfound
    rw [h.generate_eq, hr]

end Makefile

/-- A config directory with a config that names another one as an extra config. -/
def Source.exporting : Source where
  tree := {
    nodes := ⟨[
      ("/d", .directory),
      ("/d/flag_declarations", .directory),
      ("/d/flag_declarations/E.toml",
        .file (some ("name='RELEASE_ACONFIG_EXTRA_RELEASE_CONFIGS'\nnamespace=''\n" ++
          "workflow='MANUAL'\nvalue=\x7bstring_value='b'\x7d"))),
      ("/d/release_config_map.toml", .file (some "")),
      ("/d/release_configs", .directory),
      ("/d/release_configs/a.toml", .file (some "name='a'")),
      ("/d/release_configs/b.toml", .file (some "name='b'"))], by
        unfold Increasing
        decide +kernel⟩
    workingDirectory := "" }
  root := ⟨""⟩

namespace Makefile

/-- All that the fragment of a config may show, if it is rendered for the name `A`. -/
def shownBy (registry : Registry) (resolved : Resolved) (flags : Flags) : List String :=
  [resolved.name, "A"] ++
    (registry.configs.values.flatMap fun config => config.name :: config.otherNames) ++
    resolved.filesUsed.names ++ flags.names ++ flags.values.flatMap shownOf

lemma plain_of_shownBy (h : ∀ shown ∈ shownBy registry resolved flags, OneLine shown) :
    Plain registry resolved flags "A" := by
  simp only [shownBy, List.forall_mem_append] at h
  obtain ⟨⟨⟨⟨hname, hnames⟩, hfiles⟩, hkeys⟩, hflags⟩ := h
  refine ⟨hname _ (by simp), by decide, fun name hmem => ?_, hfiles, hkeys,
    fun key flag hflag shown hmem => ?_⟩
  · rw [Registry.listableNames, (List.mergeSort_perm _ _).mem_iff] at hmem
    obtain ⟨config, hconfig, hname⟩ := List.mem_flatMap.mp hmem
    exact hnames name (List.mem_flatMap.mpr ⟨config, (List.mem_filter.mp hconfig).1, hname⟩)
  · exact hflags shown (List.mem_flatMap.mpr ⟨flag, NameMap.mem_values.mpr ⟨key, hflag⟩, hmem⟩)

/-- In what a scan gives, the fragment of `a` is rendered with the extra config `b`, and all that it
may show is listed. -/
def showsExtra (scan : Except Error Registry) (shown : List String) : Bool :=
  match scan with
  | .error _ => false
  | .ok scanned =>
    let registry := { scanned with allowMissing := false }.setOptions .default
    match ((render "a" "A").run registry).1, ((Registry.generate "a").run registry).1,
      ((Registry.generate "b").run registry).1 with
    | .ok _, .ok resolved, .ok extra =>
      extraNames resolved = ["b"] &&
        shownBy registry resolved (exportedFlags resolved [("b", extra)]) = shown
    | _, _, _ => false

lemma exists_of_showsExtra {scan : Except Error Registry} {shown : List String}
    (h : showsExtra scan shown = true) : ∃ (scanned : Registry) (fragment : String)
      (resolved extra : Resolved), scan = .ok scanned ∧
      let registry := { scanned with allowMissing := false }.setOptions .default
      ((render "a" "A").run registry).1 = .ok fragment ∧
        ((Registry.generate "a").run registry).1 = .ok resolved ∧
        ((Registry.generate "b").run registry).1 = .ok extra ∧ extraNames resolved = ["b"] ∧
        shownBy registry resolved (exportedFlags resolved [("b", extra)]) = shown := by
  unfold showsExtra at h
  split at h
  · cases h
  · next scanned =>
    dsimp only at h
    split at h
    · next fragment resolved extra hrender hresolved hextra =>
      rw [Bool.and_eq_true, decide_eq_true_eq, decide_eq_true_eq] at h
      exact ⟨scanned, fragment, resolved, extra, rfl, hrender, hresolved, hextra, h⟩
    · cases h

/-- The configs behind a fragment with one extra config. -/
lemma Behind.eq_of_extraNames {word : String} {resolved' extra : Resolved}
    (h : Behind registry name resolved' extras)
    (hresolved : ((Registry.generate name).run registry).1 = .ok resolved)
    (hnames : extraNames resolved = [word])
    (hextra : ((Registry.generate word).run registry).1 = .ok extra) :
    resolved' = resolved ∧ extras = [(word, extra)] := by
  obtain rfl : resolved' = resolved := Except.ok.inj (h.resolved_eq.symm.trans hresolved)
  have hlist := h.extras_names.trans hnames
  obtain ⟨⟨other, found⟩, rfl⟩ : ∃ found, extras = [found] := by
    rw [← List.length_eq_one_iff, ← List.length_map Prod.fst, hlist]
    rfl
  obtain rfl : other = word := (List.cons.inj hlist).1
  have hfound := h.extras_eq (other, found) (List.mem_singleton_self _)
  obtain rfl : found = extra := Except.ok.inj (hfound.symm.trans hextra)
  exact ⟨rfl, rfl⟩

end Makefile

end ReleaseFlags
