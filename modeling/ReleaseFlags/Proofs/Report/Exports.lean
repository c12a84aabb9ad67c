import ReleaseFlags.Proofs.Report.Fragment

/-!
# What extra configs change in a fragment

The flags that extra configs export are put on top of the flags of the config.  A key that no extra
config exports keeps everything that is told about its flag, each of it once, whatever else is
exported (`shows_of_render`).  But the keys of exported flags are not reserved: a declared flag
whose name is the key of an exported one loses its lines to it (`own_value_overwritten`).
-/

namespace ReleaseFlags

namespace Makefile

variable {registry : Registry} {resolved : Resolved} {extra other : String × Resolved}
  {extras : List (String × Resolved)} {flags : Flags} {flag found : FlagState}
  {key name target : String}

/-! ### The lines of a flag -/

/-- Of the assignments above the heading of the values and of those below it, the ones for the key
are what is told about the flag, each of them once. -/
structure Shows (above below : List (String × String)) (key : String) (flag : FlagState) :
    Prop where
  value_eq : below.filter (fun a => a.1 = key) = [(key, flag.value.marshal)]
  metadata_eq : ∀ suffix value, Tells flag suffix value →
    above.filter (fun a => a.1 = variableOf key suffix) = [(variableOf key suffix, value)]

/-- What is behind a key is shown for it. -/
lemma WellSpelled.shows (h : WellSpelled flags) (hflag : flags.get? key = some flag) :
    Shows (settings flags) (valuesOf flags) key flag where
  value_eq := by
    have hfilter := NameMap.filter_entries hflag
    rw [valuesOf, List.filter_map]
    simp only [Function.comp_def, hfilter, List.map_cons, List.map_nil]
  metadata_eq := by
    intro suffix value htells
    have hpartitions : ((partitions flags).entries.map fun entry =>
        ("_ALL_RELEASE_FLAGS.PARTITIONS." ++ entry.1, Words.toLine entry.2)).filter
          (fun a => a.1 = variableOf key suffix) = [] := by
      refine List.filter_eq_nil_iff.mpr fun a ha => ?_
      obtain ⟨entry, hentry, rfl⟩ := List.mem_map.mp ha
      rw [← variableOf_partitions]
      -- a partition is no suffix
      have hpartition := isMetadata_partition (h.partition (NameMap.mem_entries.mp hentry))
      have hsuffix := isMetadata_of_tells htells key
      simp only [decide_eq_true_eq]
      intro heq
      rw [heq, hsuffix] at hpartition
      cases hpartition
    have hmetadata := NameMap.filter_entries
      (get?_metadataVariables.mpr ⟨key, flag, suffix, hflag, htells, rfl⟩)
    rw [settings, List.filter_append, List.filter_append, hpartitions, hmetadata]
    simp [(variableOf_ne key suffix).symm]

/-! ### Which flag is behind a key -/

lemma exported?_eq_some : exported? key extra = some flag ↔
    ∃ known ∈ [KnownFlag.aconfigValueSets, KnownFlag.flagDefaultPermission],
      key = known ++ "_" ++ extra.1 ∧ extra.2.flags.get? known = some flag := by
  unfold exported?
  simp only [List.mem_cons, List.not_mem_nil, or_false, exists_eq_or_imp, exists_eq_left]
  by_cases hsets : key = KnownFlag.aconfigValueSets ++ "_" ++ extra.1
  · subst hsets
    simp [permissionKey_ne extra.1 extra.1 |>.symm]
  · simp [hsets]

/-- Under one key, configs of different names export nothing. -/
lemma exported?_inj (hsame : extra.1 = other.1 → extra.2 = other.2)
    (h : exported? key extra = some flag) (h' : exported? key other = some found) :
    flag = found := by
  obtain ⟨known, hknown, hkey, hflag⟩ := exported?_eq_some.mp h
  obtain ⟨known', hknown', hkey', hfound⟩ := exported?_eq_some.mp h'
  rw [hkey] at hkey'
  obtain rfl : known = known' := by
    simp only [List.mem_cons, List.not_mem_nil, or_false] at hknown hknown'
    rcases hknown with rfl | rfl
    · rcases hknown' with rfl | rfl
      · rfl
      · exact absurd hkey'.symm (permissionKey_ne _ _)
    · rcases hknown' with rfl | rfl
      · exact absurd hkey' (permissionKey_ne _ _)
      · rfl
  have hname : extra.1 = other.1 := by
    rw [← String.toList_inj]
    simpa [← String.toList_inj] using hkey'
  rw [hsame hname] at hflag
  exact Option.some.inj (hflag.symm.trans hfound)

lemma flagOf_of_not_exported (h : ∀ extra ∈ extras, exported? key extra = none) :
    flagOf resolved extras key = resolved.flags.get? key := by
  have hnone : extras.reverse.findSome? (exported? key) = none :=
    List.findSome?_eq_none_iff.mpr fun extra hextra => h extra (List.mem_reverse.mp hextra)
  rw [flagOf, hnone, Option.none_or]

/-- What an extra config exports hides the flag of the same name. -/
lemma flagOf_of_exported
    (hsame : ∀ extra ∈ extras, ∀ other ∈ extras, extra.1 = other.1 → extra.2 = other.2)
    (hextra : extra ∈ extras) (h : exported? key extra = some found) :
    flagOf resolved extras key = some found := by
  cases hlast : extras.reverse.findSome? (exported? key) with
  | none =>
    have hnone := List.findSome?_eq_none_iff.mp hlast extra (List.mem_reverse.mpr hextra)
    rw [hnone] at h
    cases h
  | some last =>
    obtain ⟨other, hother, hexported⟩ := List.exists_of_findSome?_eq_some hlast
    have hpair := hsame other (List.mem_reverse.mp hother) extra hextra
    rw [flagOf, hlast, Option.some_or, exported?_inj hpair hexported h]

/-- Extra configs of one name are one config. -/
lemma Behind.eq_of_name (h : Behind registry name resolved extras) :
    ∀ extra ∈ extras, ∀ other ∈ extras, extra.1 = other.1 → extra.2 = other.2 := by
  intro extra hextra other hother heq
  have hresolved := h.extras_eq extra hextra
  rw [heq, h.extras_eq other hother] at hresolved
  exact (Except.ok.inj hresolved).symm

/-- What a fragment shows of a key is told about the flag behind it. -/
lemma Behind.shows (hbehind : Behind registry name resolved extras) (h : registry.Reached)
    (hflag : flagOf resolved extras key = some flag) :
    Shows (settings (exportedFlags resolved extras)) (valuesOf (exportedFlags resolved extras)) key
      flag := by
  have hr := hbehind.resolved_eq
  rw [h.coherent.generate_eq] at hr
  have hextras (extra : String × Resolved) (hmem : extra ∈ extras) :
      registry.resolution extra.1 = .ok extra.2 := by
    rw [← h.coherent.generate_eq]
    exact hbehind.extras_eq extra hmem
  rw [← get?_exportedFlags] at hflag
  exact (h.wellSpelled hr hbehind.extras_names hextras).shows hflag

/-- **What a fragment shows of declared flags.**  A fragment that is rendered is made of a head, of
assignments above the heading of the values, and of assignments below it.  For the name of a flag of
the config they are, each of them once, the value and the metadata of this flag, whatever extra
configs there are, if none of them exports a flag under this very name; and if one does, they are
those of the exported flag. -/
theorem shows_of_render (h : registry.Reached) {fragment : String}
    (hrender : ((render name target).run registry).1 = .ok fragment) :
    ∃ resolved extras above below, Behind registry name resolved extras ∧
      fragment = unlines (headLines registry resolved target ++ assignmentLines above ++
        ["", "", heading] ++ assignmentLines below) ∧
      ∀ key flag, resolved.flags.get? key = some flag →
        ((∀ extra ∈ extras, exported? key extra = none) → Shows above below key flag) ∧
        ∀ extra ∈ extras, ∀ found, exported? key extra = some found →
          Shows above below key found := by
  obtain ⟨resolved, extras, hbehind, rfl⟩ := exists_behind h.coherent hrender
  refine ⟨resolved, extras, settings (exportedFlags resolved extras),
    valuesOf (exportedFlags resolved extras), hbehind, text_eq_unlines, fun key flag hflag => ?_⟩
  refine ⟨fun hnone => hbehind.shows h ?_, fun extra hextra found hfound => hbehind.shows h ?_⟩
  · rw [flagOf_of_not_exported hnone, hflag]
  · exact flagOf_of_exported hbehind.eq_of_name hextra hfound

end Makefile

/-- A config directory with a declared flag whose name is the key under which the value sets of the
extra config are exported. -/
def Source.colliding : Source where
  tree := {
    nodes := ⟨[
      ("/d", .directory),
      ("/d/flag_declarations", .directory),
      ("/d/flag_declarations/E.toml",
        .file (some ("name='RELEASE_ACONFIG_EXTRA_RELEASE_CONFIGS'\nnamespace=''\n" ++
          "value=\x7bstring_value='B'\x7d"))),
      ("/d/flag_declarations/F.toml",
        .file (some ("name='RELEASE_ACONFIG_VALUE_SETS_B'\nnamespace='own'\n" ++
          "value=\x7bstring_value='mine'\x7d\n" ++
          "containers=['system','system_ext','product','vendor']"))),
      ("/d/release_config_map.toml", .file (some "")),
      ("/d/release_configs", .directory),
      ("/d/release_configs/B.toml", .file (some "name='B'\naconfig_value_sets=['theirs']")),
      ("/d/release_configs/a.toml", .file (some "name='a'"))], by
        unfold Increasing
        decide +kernel⟩
    workingDirectory := "" }
  root := ⟨""⟩

namespace Makefile

/-- In what a scan gives, the fragment of `a` is rendered with the extra config `B`; the config has
the flags of two keys, and `B` has value sets, with these values. -/
def collides (scan : Except Error Registry) (extraKey ownKey : String) (own sets : Value) : Bool :=
  match scan with
  | .error _ => false
  | .ok scanned =>
    let registry := { scanned with allowMissing := false }.setOptions .default
    match ((render "a" "a").run registry).1, ((Registry.generate "a").run registry).1,
      ((Registry.generate "B").run registry).1 with
    | .ok _, .ok resolved, .ok extra =>
      extraNames resolved = ["B"] && resolved.flags.contains extraKey &&
        (resolved.flags.get? ownKey).map FlagState.value = some own &&
        (extra.flags.get? KnownFlag.aconfigValueSets).map FlagState.value = some sets
    | _, _, _ => false

lemma exists_of_collides {scan : Except Error Registry} {extraKey ownKey : String}
    {own sets : Value} (h : collides scan extraKey ownKey own sets = true) :
    ∃ (scanned : Registry) (fragment : String) (resolved extra : Resolved) (first flag found :
      FlagState), scan = .ok scanned ∧
      let registry := { scanned with allowMissing := false }.setOptions .default
      ((render "a" "a").run registry).1 = .ok fragment ∧
        ((Registry.generate "a").run registry).1 = .ok resolved ∧
        ((Registry.generate "B").run registry).1 = .ok extra ∧ extraNames resolved = ["B"] ∧
        resolved.flags.get? extraKey = some first ∧
        resolved.flags.get? ownKey = some flag ∧ flag.value = own ∧
        extra.flags.get? KnownFlag.aconfigValueSets = some found ∧ found.value = sets := by
  unfold collides at h
  split at h
  · cases h
  · next scanned =>
    dsimp only at h
    split at h
    · next fragment resolved extra hrender hresolved hextra =>
      simp only [Bool.and_eq_true, decide_eq_true_eq, Option.map_eq_some_iff, NameMap.contains,
        Option.isSome_iff_exists] at h
      obtain ⟨⟨⟨hnames, first, hfirst⟩, flag, hflag, rfl⟩, found, hfound, rfl⟩ := h
      exact ⟨scanned, fragment, resolved, extra, first, flag, found, rfl, hrender, hresolved,
        hextra, hnames, hfirst, hflag, rfl, hfound, rfl⟩
    · cases h

/-- The configs behind the fragment of the sample, with a flag of the config whose name is the key
of an exported one. -/
lemma exists_colliding : ∃ (scanned : Registry) (fragment : String) (resolved extra : Resolved)
    (first flag found : FlagState), Source.colliding.scan ["d"] = .ok scanned ∧
      let registry := { scanned with allowMissing := false }.setOptions .default
      registry.Reached ∧ ((render "a" "a").run registry).1 = .ok fragment ∧
        Behind registry "a" resolved [("B", extra)] ∧
        resolved.flags.get? KnownFlag.extraReleaseConfigs = some first ∧
        resolved.flags.get? "RELEASE_ACONFIG_VALUE_SETS_B" = some flag ∧
        flag.value = .text "mine" ∧
        exported? "RELEASE_ACONFIG_VALUE_SETS_B" ("B", extra) = some found ∧
        found.value = .text "theirs" := by
  have hcollides : collides (Source.colliding.scan ["d"]) KnownFlag.extraReleaseConfigs
      "RELEASE_ACONFIG_VALUE_SETS_B" (.text "mine") (.text "theirs") = true := by
    decide +kernel
  obtain ⟨scanned, fragment, resolved, extra, first, flag, found, hscan, hrender, hresolved, hextra,
    hnames, hfirst, hflag, hown, hfound, hsets⟩ := exists_of_collides hcollides
  have hreached : ({ scanned with allowMissing := false }.setOptions .default).Reached :=
    ⟨Source.colliding, ["d"], scanned, false, .default, [], hscan, rfl⟩
  obtain ⟨_, extras, hbehind, -⟩ := exists_behind hreached.coherent hrender
  obtain ⟨rfl, rfl⟩ := hbehind.eq_of_extraNames hresolved hnames hextra
  have hexported : exported? "RELEASE_ACONFIG_VALUE_SETS_B" ("B", extra) = some found :=
    exported?_eq_some.mpr ⟨_, List.mem_cons_self, rfl, hfound⟩
  exact ⟨scanned, fragment, _, extra, first, flag, found, hscan, hreached, hrender, hbehind, hfirst,
    hflag, hown, hexported, hsets⟩

/-- The fragment shows the flag that names the extra config as it is, and in place of the flag of
the key the exported one. -/
theorem shows_of_render_colliding : ∃ registry fragment resolved extra first found above below,
    registry.Reached ∧ ((render "a" "a").run registry).1 = .ok fragment ∧
      Behind registry "a" resolved [("B", extra)] ∧
      resolved.flags.get? KnownFlag.extraReleaseConfigs = some first ∧
      exported? "RELEASE_ACONFIG_VALUE_SETS_B" ("B", extra) = some found ∧
      Shows above below KnownFlag.extraReleaseConfigs first ∧
      Shows above below "RELEASE_ACONFIG_VALUE_SETS_B" found := by
  obtain ⟨scanned, fragment, resolved, extra, first, flag, found, -, hreached, hrender, hbehind,
    hfirst, hflag, -, hexported, -⟩ := exists_colliding
  obtain ⟨resolved', extras, above, below, hbehind', -, hshows⟩ := shows_of_render hreached hrender
  obtain ⟨rfl, rfl⟩ := hbehind'.eq_of_extraNames hbehind.resolved_eq hbehind.extras_names.symm
    (hbehind.extras_eq ("B", extra) List.mem_cons_self)
  have hkept : ∀ e ∈ [("B", extra)], exported? KnownFlag.extraReleaseConfigs e = none := by
    intro e he
    obtain rfl := List.mem_singleton.mp he
    have hsets : KnownFlag.extraReleaseConfigs ≠ KnownFlag.aconfigValueSets ++ "_" ++ "B" := by
      decide
    have hpermission :
        KnownFlag.extraReleaseConfigs ≠ KnownFlag.flagDefaultPermission ++ "_" ++ "B" := by
      decide
    rw [exported?, if_neg hsets, if_neg hpermission]
  exact ⟨_, fragment, resolved', extra, first, found, above, below, hreached, hrender, hbehind,
    hfirst, hexported, (hshows _ first hfirst).1 hkept,
    (hshows _ flag hflag).2 ("B", extra) List.mem_cons_self found hexported⟩

/-- A declared flag may lose its value to an exported one: its own value is nowhere among the values
of the fragment. -/
theorem own_value_overwritten : ∃ scanned fragment resolved extra flag above below,
    Source.colliding.scan ["d"] = .ok scanned ∧
      let registry := { scanned with allowMissing := false }.setOptions .default
      ((render "a" "a").run registry).1 = .ok fragment ∧
        Behind registry "a" resolved [("B", extra)] ∧
        fragment = unlines (headLines registry resolved "a" ++ assignmentLines above ++
          ["", "", heading] ++ assignmentLines below) ∧
        resolved.flags.get? "RELEASE_ACONFIG_VALUE_SETS_B" = some flag ∧
        flag.value.marshal = "mine" ∧
        below.filter (fun a => a.1 = "RELEASE_ACONFIG_VALUE_SETS_B") =
          [("RELEASE_ACONFIG_VALUE_SETS_B", "theirs")] ∧
        ¬ Shows above below "RELEASE_ACONFIG_VALUE_SETS_B" flag := by
  obtain ⟨scanned, fragment, resolved, extra, -, flag, found, hscan, hreached, hrender, hbehind,
    -, hflag, hown, hexported, hsets⟩ := exists_colliding
  obtain ⟨resolved', extras, hbehind', rfl⟩ := exists_behind hreached.coherent hrender
  obtain ⟨rfl, rfl⟩ := hbehind'.eq_of_extraNames hbehind.resolved_eq hbehind.extras_names.symm
    (hbehind.extras_eq ("B", extra) List.mem_cons_self)
  have hshows := hbehind.shows hreached
    (flagOf_of_exported hbehind.eq_of_name List.mem_cons_self hexported)
  have hvalue := hshows.value_eq
  rw [hsets] at hvalue
  refine ⟨scanned, _, resolved', extra, flag, _, _, hscan, hrender, hbehind, text_eq_unlines, hflag,
    ?_, hvalue, fun hown' => ?_⟩
  · rw [hown]
    rfl
  · have heq := hown'.value_eq
    rw [hown, hvalue] at heq
    revert heq
    decide

end Makefile

end ReleaseFlags
