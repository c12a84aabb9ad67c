import ReleaseFlags.Proofs.Registry.Steps

/-!
# Scanning loses and invents nothing

What is written below a list of config directories (`contentsOf`), read file by file and without any
check, against what a scan makes of it (`Holds`).  A scan that succeeds gives exactly these contents
(`holds_of_scan`): each of the loops over files adds what its file holds to what the registry held
before, and the checks of the scan say that nothing is in the way of it.
-/

namespace ReleaseFlags

/-- A declaration of a flag, and where it stands. -/
structure Declared where
  /-- The path of the file. -/
  path : String
  /-- The index of the config directory. -/
  index : Nat
  declaration : FlagDeclaration

/-- The flag as the declaration leaves it. -/
def Declared.state (d : Declared) : FlagState := .declare d.declaration (some d.index) d.path

/-- Declarations of one flag are in one directory, and equal. -/
def DeclaredAlike (declared : List Declared) : Prop :=
  ∀ d ∈ declared, ∀ other ∈ declared, d.declaration.name = other.declaration.name →
    d.index = other.index ∧ d.declaration = other.declaration

/-- What is written in config directories, in the order in which it is read. -/
structure Contents where
  directories : List String
  maps : List LoadedMap
  aliases : List Alias
  declared : List Declared
  contributions : List Contribution

/-- The contents, and others behind them. -/
def Contents.append (contents more : Contents) : Contents where
  directories := contents.directories ++ more.directories
  maps := contents.maps ++ more.maps
  aliases := contents.aliases ++ more.aliases
  declared := contents.declared ++ more.declared
  contributions := contents.contributions ++ more.contributions

/-- The contents of several directories one behind the other. -/
def Contents.join (parts : List Contents) : Contents where
  directories := parts.flatMap Contents.directories
  maps := parts.flatMap Contents.maps
  aliases := parts.flatMap Contents.aliases
  declared := parts.flatMap Contents.declared
  contributions := parts.flatMap Contents.contributions

/-! ### What is written below a directory -/

namespace Source

variable (source : Source)

/-- The declaration in a file. Where it lists no containers it gets the default ones. -/
def declaredIn (directory : ConfigDirectory) (index : Nat) (defaultContainers : List String)
    (file : Path) : Except Error Declared := do
  let written ← source.load FlagDeclaration.decode file
  return ⟨directory.displayPath file, index, written.withContainers defaultContainers⟩

/-- The assignment in a file. -/
def assignedIn (directory : ConfigDirectory) (file : Path) : Except Error Assignment := do
  let value ← source.load FlagValueFile.decode file
  return value.assignment (directory.displayPath file)

/-- The release file and the values of the directory for the release config it names. -/
def contributedIn (directory : ConfigDirectory) (index : Nat) (file : Path) :
    Except Error Contribution := do
  let release ← source.load ReleaseFile.decode file
  let paths ← source.inputFiles ((directory.entry .flagValues).join release.name)
  let values ← paths.mapM (source.assignedIn directory)
  return ⟨directory.displayPath file, index, release, values⟩

/-- The contents of a config directory. -/
def contents (index : Nat) (name : String) : Except Error Contents := do
  let directory := source.directory name
  let display := directory.display.text
  let mapFile := directory.entry .map
  let map ← source.load DirectoryMap.decode mapFile
  let declarations ← source.inputFiles (directory.entry .flagDeclarations)
  let declared ← declarations.mapM (source.declaredIn directory index map.defaultContainers)
  let releases ← source.inputFiles (directory.entry .releaseConfigs)
  let contributions ← releases.mapM (source.contributedIn directory index)
  return ⟨[display], [⟨display, directory.displayPath mapFile, map⟩], map.aliases, declared,
    contributions⟩

/-- The contents of config directories; the place of each is its index. -/
def contentsOf (directories : List String) : Except Error Contents := do
  let parts ← directories.zipIdx.mapM fun (name, index) => source.contents index name
  return Contents.join parts

end Source

/-! ### Registries that hold contents -/

namespace Registry

/-- The contributions to the release config of a name; none if there is no such config. -/
def contributionsTo (registry : Registry) (name : String) : List Contribution :=
  (registry.configs.get? name).elim [] ReleaseConfig.contributions

/-- The registry holds the contents, and nothing else. -/
structure Holds (registry : Registry) (contents : Contents) : Prop where
  directories_eq : registry.directories = contents.directories
  maps_eq : registry.maps = contents.maps
  aliases_iff : ∀ name target,
    registry.aliases.get? name = some target ↔ ⟨name, target⟩ ∈ contents.aliases
  /-- The flag of the engine is declared nowhere. -/
  not_reserved : ∀ d ∈ contents.declared, d.declaration.name ≠ KnownFlag.aconfigValueSets
  value_sets : registry.flags.get? KnownFlag.aconfigValueSets = some valueSetsFlag
  /-- Each other flag is as the first file that names it declares it. -/
  flags_eq : ∀ name, name ≠ KnownFlag.aconfigValueSets → registry.flags.get? name =
    (contents.declared.find? fun d => d.declaration.name = name).map Declared.state
  declared_alike : DeclaredAlike contents.declared
  contributions_eq : ∀ name, registry.contributionsTo name =
    contents.contributions.filter fun c => c.file.name = name
  /-- There are no release configs without contributions. -/
  contributions_ne : ∀ name config, registry.configs.get? name = some config →
    config.contributions ≠ []
  /-- A directory contributes once to a release config. -/
  contributes_once : contents.contributions.Pairwise fun c later =>
    c.file.name = later.file.name → c.index ≠ later.index

variable {registry registry' : Registry} {contents : Contents}

lemma holds_empty : empty.Holds (Contents.join []) where
  directories_eq := rfl
  maps_eq := rfl
  aliases_iff := by simp [empty, Contents.join]
  not_reserved := by simp [Contents.join]
  value_sets := NameMap.get?_insert_self _ _ _
  flags_eq := by
    intro name hname
    have hne : name ≠ valueSetsFlag.name := hname
    simp [empty, Flags.put, NameMap.get?_insert, hne, Contents.join]
  declared_alike := by simp [DeclaredAlike, Contents.join]
  contributions_eq := by simp [contributionsTo, empty, Contents.join]
  contributions_ne := by simp [empty]
  contributes_once := List.Pairwise.nil

/-- A further declaration has to agree with the ones before it. -/
lemma declaredAlike_concat {declared : List Declared} {d : Declared} (h : DeclaredAlike declared)
    (hd : ∀ other ∈ declared, other.declaration.name = d.declaration.name →
      other.index = d.index ∧ other.declaration = d.declaration) :
    DeclaredAlike (declared ++ [d]) := by
  intro one hone other hother hsame
  rw [List.mem_append, List.mem_singleton] at hone hother
  rcases hone with hone | rfl <;> rcases hother with hother | rfl
  · exact h one hone other hother hsame
  · exact hd one hone hsame
  · obtain ⟨hindex, hdeclaration⟩ := hd other hother hsame.symm
    exact ⟨hindex.symm, hdeclaration.symm⟩
  · exact ⟨rfl, rfl⟩

/-- The first file that names a flag shows in the state of the flag. -/
lemma Holds.exists_first (h : registry.Holds contents) {name : String} {flag : FlagState}
    (hname : name ≠ KnownFlag.aconfigValueSets) (hget : registry.flags.get? name = some flag) :
    ∃ first, (contents.declared.find? fun d => d.declaration.name = name) = some first ∧
      flag = first.state := by
  rw [h.flags_eq name hname, Option.map_eq_some_iff] at hget
  obtain ⟨first, hfirst, rfl⟩ := hget
  exact ⟨first, hfirst, rfl⟩

/-- The first declaration of a flag. -/
lemma Holds.declare_new (h : registry.Holds contents) {d : Declared} (hvalid : d.declaration.Valid)
    (hnew : registry.flags.get? d.declaration.name = none) :
    Holds { registry with flags := registry.flags.put d.state }
      { contents with declared := contents.declared ++ [d] } := by
  have hnone : (contents.declared.find? fun other =>
      other.declaration.name = d.declaration.name) = none := by
    rw [h.flags_eq _ hvalid.name_ne, Option.map_eq_none_iff] at hnew
    exact hnew
  have hunnamed : ∀ other ∈ contents.declared, other.declaration.name ≠ d.declaration.name := by
    simpa using hnone
  have hput (name : String) : (registry.flags.put d.state).get? name =
      if name = d.declaration.name then some d.state else registry.flags.get? name :=
    NameMap.get?_insert _ _ _ _
  refine { h with not_reserved := ?_, value_sets := ?_, flags_eq := ?_, declared_alike := ?_ }
  · rw [List.forall_mem_append, List.forall_mem_singleton]
    exact ⟨h.not_reserved, hvalid.name_ne⟩
  · exact (hput _).trans ((if_neg (Ne.symm hvalid.name_ne)).trans h.value_sets)
  · intro name hname
    refine (hput name).trans ?_
    rw [List.find?_append]
    by_cases heq : name = d.declaration.name
    · subst heq
      simp [hnone]
    · simp [heq, Ne.symm heq, h.flags_eq name hname]
  · refine declaredAlike_concat h.declared_alike fun other hother hname => ?_
    exact absurd hname (hunnamed other hother)

/-- A declaration that repeats the one that the registry holds. -/
lemma Holds.declare_again (h : registry.Holds contents) {d : Declared}
    (hvalid : d.declaration.Valid) {flag : FlagState}
    (hget : registry.flags.get? d.declaration.name = some flag)
    (hindex : flag.declarationIndex = some d.index)
    (hdeclaration : flag.declaration = d.declaration) :
    registry.Holds { contents with declared := contents.declared ++ [d] } := by
  obtain ⟨first, hfirst, rfl⟩ := h.exists_first hvalid.name_ne hget
  have hindex : first.index = d.index := Option.some.inj hindex
  have hdeclaration : first.declaration = d.declaration := hdeclaration
  refine { h with not_reserved := ?_, flags_eq := ?_, declared_alike := ?_ }
  · rw [List.forall_mem_append, List.forall_mem_singleton]
    exact ⟨h.not_reserved, hvalid.name_ne⟩
  · intro name hname
    rw [h.flags_eq name hname, List.find?_append]
    by_cases heq : name = d.declaration.name
    · subst heq
      rw [hfirst, Option.some_or]
    · simp [Ne.symm heq]
  · refine declaredAlike_concat h.declared_alike fun other hother hname => ?_
    -- what names the flag agrees with the first file that does, and so with the further one
    rw [← hindex, ← hdeclaration]
    exact h.declared_alike other hother first (List.mem_of_find?_eq_some hfirst)
      (hdeclaration ▸ hname)

/-- A declaration that the registry accepts is held besides the others. -/
lemma Holds.declare (h : registry.Holds contents) {d : Declared} (hvalid : d.declaration.Valid)
    (hrun : (Source.declareFlag d.declaration d.index d.path).run registry = (.ok (), registry')) :
    registry'.Holds { contents with declared := contents.declared ++ [d] } := by
  rcases registry.declareFlag_cases d.declaration d.index d.path with
    ⟨hnew, heq⟩ | ⟨flag, hget, hindex, hdeclaration, heq⟩ | ⟨e, heq⟩
  · cases heq.symm.trans hrun
    exact h.declare_new hvalid hnew
  · cases heq.symm.trans hrun
    exact h.declare_again hvalid hget hindex hdeclaration
  · cases heq.symm.trans hrun

/-- A contribution that the registry accepts is held besides the others. -/
lemma Holds.contribute (h : registry.Holds contents) {c : Contribution}
    (hrun : (Source.contribute c).run registry = (.ok (), registry')) :
    registry'.Holds { contents with contributions := contents.contributions ++ [c] } := by
  rcases registry.contribute_cases c with ⟨hmay, heq⟩ | ⟨e, heq⟩
  · cases heq.symm.trans hrun
    have hbefore : (registry.configFor c).contributions = registry.contributionsTo c.file.name := by
      rw [configFor, contributionsTo]
      cases registry.configs.get? c.file.name with
      | none => rfl
      | some config => rfl
    have hadded : ((registry.configFor c).contributed c).contributions =
        registry.contributionsTo c.file.name ++ [c] := hbefore ▸ rfl
    refine { h with contributions_eq := ?_, contributions_ne := ?_, contributes_once := ?_ }
    · intro name
      rw [contributionsTo, Registry.contributed, NameMap.get?_insert, List.filter_append,
        ← h.contributions_eq]
      by_cases heq : name = c.file.name
      · subst heq
        simp [hadded]
      · simp [heq, Ne.symm heq, contributionsTo]
    · intro name config hconfig
      rw [Registry.contributed, NameMap.get?_insert] at hconfig
      split at hconfig
      · cases hconfig
        simp [hadded]
      · exact h.contributions_ne name config hconfig
    · refine List.pairwise_append.mpr ⟨h.contributes_once, List.pairwise_singleton _ c, ?_⟩
      intro other hother last hlast hname
      obtain rfl := List.mem_singleton.mp hlast
      refine hmay.index_ne other ?_
      rw [hbefore, h.contributions_eq]
      exact List.mem_filter.mpr ⟨hother, decide_eq_true hname⟩
  · cases heq.symm.trans hrun

/-! ### Scanning -/

variable {source : Source} {directory : ConfigDirectory} {index : Nat}

/-- Reading the declarations of a directory adds what they are, file by file. -/
lemma Holds.loadDeclarations (h : registry.Holds contents) {defaultContainers : List String}
    (hrun : (source.loadDeclarations directory index defaultContainers).run registry =
      (.ok (), registry')) :
    ∃ files declared, source.inputFiles (directory.entry .flagDeclarations) = .ok files ∧
      files.mapM (source.declaredIn directory index defaultContainers) = .ok declared ∧
      registry'.Holds { contents with declared := contents.declared ++ declared } := by
  rw [Source.loadDeclarations, run_liftExcept_bind] at hrun
  split at hrun
  · next files hfiles =>
    let Held (declared : List Declared) (registry : Registry) :=
      registry.Holds { contents with declared := contents.declared ++ declared }
    have hstart : Held [] registry := by simpa [Held] using h
    have hstep (before : List Declared) (file : Path) (registry later : Registry)
        (hbefore : Held before registry) (hfile : (do
          let declaration ← liftExcept
            (source.readDeclaration defaultContainers file (directory.displayPath file))
          Source.declareFlag declaration index (directory.displayPath file)
          modify fun registry => { registry with
            filesUsed := registry.filesUsed.add (directory.displayPath file) } :
              Session PUnit).run registry = (.ok (), later)) :
        ∃ d, source.declaredIn directory index defaultContainers file = .ok d ∧
          Held (before ++ [d]) later := by
      rw [run_liftExcept_bind] at hfile
      split at hfile
      · next declaration hread =>
        obtain ⟨written, hwritten, rfl, hvalid⟩ := Source.readDeclaration_eq_ok.mp hread
        obtain ⟨_, between, hdeclare, hadd⟩ := exists_of_run_bind_eq_ok hfile
        let d : Declared :=
          ⟨directory.displayPath file, index, written.withContainers defaultContainers⟩
        have hheld := hbefore.declare (d := d) hvalid hdeclare
        rw [List.append_assoc] at hheld
        -- the file itself is noted with those that were used
        cases hadd
        exact ⟨d, bind_eq_ok.mpr ⟨written, hwritten, rfl⟩, { hheld with }⟩
      · cases hfile
    obtain ⟨declared, hdeclared, hend⟩ := exists_of_run_forM hstep hrun hstart
    exact ⟨files, declared, hfiles, hdeclared, hend⟩
  · cases hrun

lemma contributedIn_of_readContribution {file : Path} {c : Contribution}
    (h : source.readContribution directory index file = .ok c) :
    source.contributedIn directory index file = .ok c := by
  obtain ⟨release, paths, values, hrelease, -, hpaths, hvalues, rfl⟩ :=
    Source.readContribution_eq_ok.mp h
  have hassigned : paths.mapM (source.assignedIn directory) = .ok (values.map id) := by
    refine mapM_map_eq_ok hvalues fun path _ a ha => ?_
    obtain ⟨value, hvalue, -, rfl⟩ := Source.readValue_eq_ok.mp ha
    exact bind_eq_ok.mpr ⟨value, hvalue, rfl⟩
  rw [List.map_id] at hassigned
  refine bind_eq_ok.mpr ⟨release, hrelease, bind_eq_ok.mpr ⟨paths, hpaths, ?_⟩⟩
  exact bind_eq_ok.mpr ⟨values, hassigned, rfl⟩

/-- Reading the release files of a directory adds what they contribute, file by file. -/
lemma Holds.loadContributions (h : registry.Holds contents)
    (hrun : (source.loadContributions directory index).run registry = (.ok (), registry')) :
    ∃ files contributions, source.inputFiles (directory.entry .releaseConfigs) = .ok files ∧
      files.mapM (source.contributedIn directory index) = .ok contributions ∧
      registry'.Holds { contents with
        contributions := contents.contributions ++ contributions } := by
  rw [Source.loadContributions, run_liftExcept_bind] at hrun
  split at hrun
  · next files hfiles =>
    let Held (contributions : List Contribution) (registry : Registry) :=
      registry.Holds { contents with contributions := contents.contributions ++ contributions }
    have hstart : Held [] registry := by simpa [Held] using h
    have hstep (before : List Contribution) (file : Path) (registry later : Registry)
        (hbefore : Held before registry) (hfile : (do
          Source.contribute (← liftExcept (source.readContribution directory index file)) :
            Session PUnit).run registry = (.ok (), later)) :
        ∃ c, source.contributedIn directory index file = .ok c ∧ Held (before ++ [c]) later := by
      rw [run_liftExcept_bind] at hfile
      split at hfile
      · next c hread =>
        have hheld := hbefore.contribute hfile
        rw [List.append_assoc] at hheld
        exact ⟨c, contributedIn_of_readContribution hread, hheld⟩
      · cases hfile
    obtain ⟨contributions, hcontributions, hend⟩ := exists_of_run_forM hstep hrun hstart
    exact ⟨files, contributions, hfiles, hcontributions, hend⟩
  · cases hrun

/-- Reading a directory adds its contents, at the next index. -/
lemma Holds.loadDirectory (h : registry.Holds contents) {name : String}
    (hrun : (source.loadDirectory name).run registry = (.ok (), registry')) :
    ∃ part, source.contents registry.directories.length name = .ok part ∧
      registry'.Holds (contents.append part) ∧
      registry'.directories.length = registry.directories.length + 1 := by
  rw [Source.loadDirectory, run_get_bind, run_get_bind] at hrun
  by_cases hdisplay : (source.directory name).display.text ∈ registry.directories
  · simp only [if_pos hdisplay] at hrun
    cases hrun
  simp only [if_neg hdisplay] at hrun
  split at hrun
  · cases hrun
  rw [run_liftExcept_bind] at hrun
  split at hrun
  · next map hmap =>
    obtain ⟨_, aliased, haliases, hrun⟩ := exists_of_run_bind_eq_ok hrun
    obtain ⟨linked, rfl, hlinked⟩ := Source.aliases_of_loadAliases haliases
    rw [run_modify_bind] at hrun
    obtain ⟨_, declared, hdeclare, hrun⟩ := exists_of_run_bind_eq_ok hrun
    obtain ⟨_, contributed, hcontribute, hmaps⟩ := exists_of_run_bind_eq_ok hrun
    have hpushed : Holds
        { registry with
          aliases := linked
          directories := registry.directories ++ [(source.directory name).display.text]
          filesUsed := registry.filesUsed.add
            ((source.directory name).displayPath ((source.directory name).entry .map)) }
        { contents with
          aliases := contents.aliases ++ map.aliases
          directories := contents.directories ++ [(source.directory name).display.text] } :=
      { h with
        directories_eq := by simp [h.directories_eq]
        aliases_iff := by simp [hlinked, h.aliases_iff] }
    obtain ⟨files, ds, hfiles, hds, hdeclared⟩ := hpushed.loadDeclarations hdeclare
    obtain ⟨releases, cs, hreleases, hcs, hcontributed⟩ := hdeclared.loadContributions hcontribute
    cases hmaps
    let mapFile := (source.directory name).entry .map
    let display := (source.directory name).display.text
    let path := (source.directory name).displayPath mapFile
    let part : Contents := ⟨[display], [⟨display, path, map⟩], map.aliases, ds, cs⟩
    have hpart : source.contents registry.directories.length name = .ok part := by
      refine bind_eq_ok.mpr ⟨map, hmap, bind_eq_ok.mpr ⟨files, hfiles, ?_⟩⟩
      refine bind_eq_ok.mpr ⟨ds, hds, bind_eq_ok.mpr ⟨releases, hreleases, ?_⟩⟩
      exact bind_eq_ok.mpr ⟨cs, hcs, rfl⟩
    have hlength : contributed.directories.length = registry.directories.length + 1 := by
      rw [hcontributed.directories_eq, h.directories_eq]
      simp
    refine ⟨part, hpart, { hcontributed with maps_eq := ?_ }, hlength⟩
    exact congrArg (· ++ part.maps) hcontributed.maps_eq
  · cases hrun

/-- Reading directories adds their contents, one after the other. -/
lemma Holds.loadDirectories (h : registry.Holds contents) {names : List String}
    (hrun : (names.forM source.loadDirectory).run registry = (.ok (), registry')) :
    ∃ parts, ((names.zipIdx registry.directories.length).mapM fun (name, index) =>
        source.contents index name) = .ok parts ∧
      registry'.Holds (contents.append (Contents.join parts)) := by
  induction names generalizing registry contents with
  | nil =>
    cases hrun
    exact ⟨[], rfl, by simpa [Contents.append, Contents.join] using h⟩
  | cons name rest ih =>
    obtain ⟨_, between, hfirst, hrest⟩ := exists_of_run_bind_eq_ok hrun
    obtain ⟨part, hpart, hbetween, hlength⟩ := h.loadDirectory hfirst
    obtain ⟨parts, hparts, hend⟩ := ih hbetween hrest
    refine ⟨part :: parts, ?_, ?_⟩
    · rw [List.zipIdx_cons, List.mapM_cons, ← hlength]
      exact bind_eq_ok.mpr ⟨part, hpart, bind_eq_ok.mpr ⟨parts, hparts, rfl⟩⟩
    · simpa [Contents.append, Contents.join] using hend

/-- Linking the aliases changes nothing of the contents. -/
lemma Holds.linkAliases (h : registry.Holds contents)
    (hlink : registry.linkAliases = .ok registry') : registry'.Holds contents := by
  obtain ⟨owners, -, hlink⟩ := bind_eq_ok.mp hlink
  cases hlink
  refine { h with contributions_eq := ?_, contributions_ne := ?_ }
  · intro name
    rw [← h.contributions_eq, contributionsTo, contributionsTo, NameMap.get?_mapEntries]
    cases registry.configs.get? name with
    | none => rfl
    | some config => rfl
  · intro name config hconfig
    rw [NameMap.get?_mapEntries, Option.map_eq_some_iff] at hconfig
    obtain ⟨old, hold, rfl⟩ := hconfig
    exact h.contributions_ne name old hold

/-- A scan that succeeds can read all contents of the config directories, and the registry it gives
holds these and nothing else. -/
theorem holds_of_scan {directories : List String} (h : source.scan directories = .ok registry) :
    ∃ contents, source.contentsOf directories = .ok contents ∧ registry.Holds contents := by
  simp only [Source.scan] at h
  split at h
  · next loaded hrun =>
    obtain ⟨parts, hparts, hholds⟩ := holds_empty.loadDirectories hrun
    refine ⟨Contents.join parts, bind_eq_ok.mpr ⟨parts, hparts, rfl⟩, ?_⟩
    exact Holds.linkAliases (by simpa [Contents.append, Contents.join] using hholds) h
  · cases h

end Registry

/-! ### Map files -/

namespace Source

variable (source : Source)

/-- The map file of a config directory. -/
def mapIn (name : String) : Except Error LoadedMap := do
  let directory := source.directory name
  let mapFile := directory.entry .map
  let map ← source.load DirectoryMap.decode mapFile
  return ⟨directory.display.text, directory.displayPath mapFile, map⟩

variable {source}

lemma mapIn_eq_ok {name : String} {loaded : LoadedMap} (h : source.mapIn name = .ok loaded) :
    loaded.directory = (source.directory name).display.text ∧
      source.load DirectoryMap.decode ((source.directory name).entry .map) = .ok loaded.map := by
  obtain ⟨map, hmap, h⟩ := bind_eq_ok.mp h
  cases h
  exact ⟨rfl, hmap⟩

/-- The contents of a directory hold its map file. -/
lemma exists_mapIn_of_contents {index : Nat} {name : String} {part : Contents}
    (h : source.contents index name = .ok part) :
    ∃ loaded, source.mapIn name = .ok loaded ∧ part.maps = [loaded] ∧
      part.directories = [loaded.directory] := by
  obtain ⟨map, hmap, h⟩ := bind_eq_ok.mp h
  obtain ⟨_, -, h⟩ := bind_eq_ok.mp h
  obtain ⟨_, -, h⟩ := bind_eq_ok.mp h
  obtain ⟨_, -, h⟩ := bind_eq_ok.mp h
  obtain ⟨_, -, h⟩ := bind_eq_ok.mp h
  cases h
  exact ⟨_, bind_eq_ok.mpr ⟨map, hmap, rfl⟩, rfl, rfl⟩

lemma maps_of_parts {names : List String} {start : Nat} {parts : List Contents}
    (h : (names.zipIdx start).mapM (fun (name, index) => source.contents index name) = .ok parts) :
    names.mapM source.mapIn = .ok (Contents.join parts).maps ∧
      (Contents.join parts).directories =
        (Contents.join parts).maps.map LoadedMap.directory := by
  induction names generalizing start parts with
  | nil =>
    cases h
    exact ⟨rfl, rfl⟩
  | cons name rest ih =>
    rw [List.zipIdx_cons, List.mapM_cons] at h
    obtain ⟨part, hpart, h⟩ := bind_eq_ok.mp h
    obtain ⟨others, hothers, h⟩ := bind_eq_ok.mp h
    cases h
    obtain ⟨loaded, hloaded, hmaps, hdirectories⟩ := exists_mapIn_of_contents hpart
    obtain ⟨hrest, hshown⟩ := ih hothers
    simp only [Contents.join] at hrest hshown
    simp only [Contents.join, List.flatMap_cons, hmaps, hdirectories, hshown, List.mapM_cons]
    exact ⟨bind_eq_ok.mpr ⟨loaded, hloaded, bind_eq_ok.mpr ⟨_, hrest, rfl⟩⟩, rfl⟩

end Source

namespace Registry

/-- After a scan the registry has the map files of the config directories, in their order. -/
theorem maps_of_scan {source : Source} {directories : List String} {registry : Registry}
    (h : source.scan directories = .ok registry) :
    directories.mapM source.mapIn = .ok registry.maps ∧
      registry.directories = registry.maps.map LoadedMap.directory := by
  obtain ⟨loaded, hrun, hlink⟩ := Source.exists_run_of_scan h
  obtain ⟨parts, hparts, hholds⟩ := holds_empty.loadDirectories hrun
  have hlinked := hholds.linkAliases hlink
  have hjoin : (Contents.join []).append (Contents.join parts) = Contents.join parts := by
    simp [Contents.append, Contents.join]
  rw [hjoin] at hlinked
  rw [hlinked.maps_eq, hlinked.directories_eq]
  exact Source.maps_of_parts hparts

end Registry

/-- Two config directories that contribute to one config; the first one declares a flag twice. -/
def FileTree.pair : FileTree where
  nodes := ⟨[
    ("/d", .directory),
    ("/d/flag_declarations", .directory),
    ("/d/flag_declarations/F.toml", .file (some "name='F'\nnamespace=''\nworkflow='MANUAL'")),
    ("/d/flag_declarations/G.toml", .file (some "name='F'\nnamespace=''\nworkflow='MANUAL'")),
    ("/d/release_config_map.toml", .file (some "default_containers=['system']")),
    ("/d/release_configs", .directory),
    ("/d/release_configs/a.toml", .file (some "name='a'")),
    ("/e", .directory),
    ("/e/flag_values", .directory),
    ("/e/flag_values/a", .directory),
    ("/e/flag_values/a/F.toml", .file (some "name='F'\nredacted=true")),
    ("/e/release_config_map.toml", .file (some "[[aliases]]\nname='n'\ntarget='a'")),
    ("/e/release_configs", .directory),
    ("/e/release_configs/a.toml", .file (some "name='a'"))], by
      unfold Increasing
      decide +kernel⟩
  workingDirectory := ""

def Source.pair : Source := ⟨FileTree.pair, ⟨""⟩⟩

namespace Registry

theorem holds_of_scan_pair : ∃ registry contents, Source.pair.scan ["d", "e"] = .ok registry ∧
    Source.pair.contentsOf ["d", "e"] = .ok contents ∧ registry.Holds contents := by
  have hok : (Source.pair.scan ["d", "e"]).isOk = true := by decide +kernel
  cases hscan : Source.pair.scan ["d", "e"] with
  | error e =>
    rw [hscan] at hok
    cases hok
  | ok registry =>
    obtain ⟨contents, hcontents, hholds⟩ := holds_of_scan hscan
    exact ⟨registry, contents, rfl, hcontents, hholds⟩

end Registry

end ReleaseFlags
