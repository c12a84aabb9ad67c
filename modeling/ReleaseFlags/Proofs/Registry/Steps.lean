import ReleaseFlags.Proofs.Outcome
import ReleaseFlags.Proofs.NameMap
import ReleaseFlags.Proofs.Path
import ReleaseFlags.Registry.Load

/-!
# The steps of a load

What can be read from the single files of a config directory (`readDeclaration_eq_ok`,
`readContribution_eq_ok`), and what the single steps do to the registry: each one either makes its
change, under conditions that the lemma names, or stops with an error and leaves the registry as it
was (`declareFlag_cases`, `contribute_cases`).  What each of these changes keeps is kept by a load,
wherever it stops (`LoadInvariant.preserves_loadDirectory`).
-/

namespace ReleaseFlags

/-! ### Identifiers -/

/-- The text is a letter of the range, followed by such letters, digits and underscores. -/
def Spelled (low high : Char) (text : String) : Prop :=
  ∃ letter rest, text.toList = letter :: rest ∧ (low ≤ letter ∧ letter ≤ high) ∧
    ∀ c ∈ rest, (low ≤ c ∧ c ≤ high) ∨ ('0' ≤ c ∧ c ≤ '9') ∨ c = '_'

lemma isIdentifier_iff {isLetter : Char → Bool} {low high : Char}
    (hletter : ∀ c, isLetter c = true ↔ low ≤ c ∧ c ≤ high) {text : String} :
    isIdentifier isLetter text = true ↔ Spelled low high text := by
  have hdigit (c : Char) : c.isDigit = true ↔ '0' ≤ c ∧ c ≤ '9' := by
    simp [Char.isDigit, Char.le_def]
  unfold isIdentifier Spelled
  cases text.toList with
  | nil => simp
  | cons first rest => simp [hletter, hdigit, or_assoc, and_assoc]

/-- The names of flags are of the form `[A-Z][A-Z0-9_]*`. -/
lemma isFlagName_iff {text : String} : isFlagName text = true ↔ Spelled 'A' 'Z' text :=
  isIdentifier_iff fun _ => decide_eq_true_iff

/-- The names of containers are of the form `[a-z][a-z0-9_]*`. -/
lemma isContainerName_iff {text : String} : isContainerName text = true ↔ Spelled 'a' 'z' text :=
  isIdentifier_iff fun _ =>
    Bool.and_eq_true_iff.trans (and_congr decide_eq_true_iff decide_eq_true_iff)

lemma checkFlagName_eq_ok {name path : String} :
    checkFlagName name path = .ok () ↔ Spelled 'A' 'Z' name := by
  rw [← isFlagName_iff, checkFlagName]
  split <;> simp [*]

lemma checkContainer_eq_ok {container path : String} :
    checkContainer container path = .ok () ↔ Spelled 'a' 'z' container := by
  rw [← isContainerName_iff, checkContainer]
  split <;> simp [*]

lemma check_eq_ok {declaration : FlagDeclaration} {path : String} :
    declaration.check path = .ok () ↔ Spelled 'A' 'Z' declaration.name ∧
      ∀ container ∈ declaration.containers, Spelled 'a' 'z' container := by
  simp only [FlagDeclaration.check, bind_eq_ok, forM_eq_ok, checkContainer_eq_ok]
  constructor
  · rintro ⟨_, hname, hcontainers⟩
    exact ⟨checkFlagName_eq_ok.mp hname, hcontainers⟩
  · rintro ⟨hname, hcontainers⟩
    exact ⟨(), checkFlagName_eq_ok.mpr hname, hcontainers⟩

/-! ### What the files may declare and contribute -/

/-- The declaration with the containers of the directory, if it lists none itself. -/
def FlagDeclaration.withContainers (declaration : FlagDeclaration) (containers : List String) :
    FlagDeclaration :=
  if declaration.containers.isEmpty then { declaration with containers } else declaration

/-- Only the containers can change, and only if none are listed. -/
lemma FlagDeclaration.withContainers_eq (declaration : FlagDeclaration)
    (containers : List String) : declaration.withContainers containers =
      { declaration with
        containers := if declaration.containers = [] then containers
          else declaration.containers } := by
  rw [withContainers]
  split
  · next hnone => rw [if_pos (List.isEmpty_iff.mp hnone)]
  · next hsome => rw [if_neg fun hnil => hsome (List.isEmpty_iff.mpr hnil)]

/-- The assignment made by a file has all that the file says, and its path. -/
lemma FlagValueFile.eq_assignment_iff {file : FlagValueFile} {path : String} {a : Assignment} :
    a = file.assignment path ↔ a.path = path ∧ a.name = file.name ∧ a.value = file.value ∧
      a.redacted = file.redacted := by
  cases a
  rw [assignment, Assignment.mk.injEq]

/-- What a declaration must satisfy. -/
structure FlagDeclaration.Valid (declaration : FlagDeclaration) : Prop where
  name_spelled : Spelled 'A' 'Z' declaration.name
  containers_spelled : ∀ container ∈ declaration.containers, Spelled 'a' 'z' container
  name_ne : declaration.name ≠ KnownFlag.aconfigValueSets
  value_ne : declaration.value ≠ .obsolete

/-- A listed file has the extension, and is among those that a walk of the directory finds. -/
lemma FileTree.exists_of_mem_filesBelow {tree : FileTree} {directory file : Path}
    {extension : String} {files : List Path} (h : tree.filesBelow directory extension = .ok files)
    (hfile : file ∈ files) : file.fileExtension = some extension ∧ ∃ location found text,
      tree.walkFrom tree.depthBound [(location, directory.text)] location directory.text =
        .ok found ∧ text ∈ found ∧ file = .ofText text := by
  unfold filesBelow at h
  split at h
  · cases h
    cases hfile
  · next location _ =>
    split at h
    · cases h
      cases hfile
    · obtain ⟨found, hfound, h⟩ := bind_eq_ok.mp h
      cases h
      obtain ⟨hmem, hextension⟩ := List.mem_filter.mp hfile
      obtain ⟨text, htext, rfl⟩ := List.mem_map.mp hmem
      exact ⟨of_decide_eq_true hextension, location, found, text, hfound, htext, rfl⟩

namespace Source

variable {source : Source} {file : Path} {path : String}

/-- A declaration that can be read is valid, and is the one in the file but for the containers. -/
lemma readDeclaration_eq_ok {containers : List String} {declaration : FlagDeclaration} :
    source.readDeclaration containers file path = .ok declaration ↔
      ∃ written, source.load FlagDeclaration.decode file = .ok written ∧
        declaration = written.withContainers containers ∧ declaration.Valid := by
  have hchecks (found : FlagDeclaration) :
      (do
        (found.check path).mapError .flag
        if found.name = KnownFlag.aconfigValueSets then throw (.reservedFlag found.name path)
        if found.value = .obsolete then throw (.redactedByDefault found.name path)
        return found : Except Error FlagDeclaration) = .ok declaration ↔
      declaration = found ∧ declaration.Valid := by
    constructor
    · intro h
      obtain ⟨_, hcheck, h⟩ := bind_eq_ok.mp h
      obtain ⟨hname, hcontainers⟩ := check_eq_ok.mp (mapError_eq_ok.mp hcheck)
      by_cases hreserved : found.name = KnownFlag.aconfigValueSets
      · simp only [if_pos hreserved] at h
        cases h
      by_cases hobsolete : found.value = .obsolete
      · simp only [if_neg hreserved, if_pos hobsolete] at h
        cases h
      simp only [if_neg hreserved, if_neg hobsolete] at h
      cases h
      exact ⟨rfl, hname, hcontainers, hreserved, hobsolete⟩
    · rintro ⟨rfl, hvalid⟩
      have hcheck : declaration.check path = .ok () :=
        check_eq_ok.mpr ⟨hvalid.name_spelled, hvalid.containers_spelled⟩
      refine bind_eq_ok.mpr ⟨(), mapError_eq_ok.mpr hcheck, ?_⟩
      simp only [if_neg hvalid.name_ne, if_neg hvalid.value_ne]
      rfl
  exact bind_eq_ok.trans (exists_congr fun written => and_congr_right fun _ =>
    hchecks (written.withContainers containers))

lemma readValue_eq_ok {directory : ConfigDirectory} {a : Assignment} :
    source.readValue directory file = .ok a ↔
      ∃ value, source.load FlagValueFile.decode file = .ok value ∧
        file.fileStem = some value.name ∧ a = value.assignment (directory.displayPath file) := by
  refine bind_eq_ok.trans (exists_congr fun value => and_congr_right fun _ => ?_)
  by_cases hstem : file.fileStem = some value.name
  · simp [hstem, pure, Except.pure, eq_comm]
  · simp [hstem, throw, throwThe, MonadExceptOf.throw, bind, Except.bind]

/-- A contribution that can be read holds the release file, named after its release config, and the
values of the directory for this config. -/
lemma readContribution_eq_ok {directory : ConfigDirectory} {index : Nat} {c : Contribution} :
    source.readContribution directory index file = .ok c ↔
      ∃ release paths values, source.load ReleaseFile.decode file = .ok release ∧
        file.fileStem = some release.name ∧
        source.inputFiles ((directory.entry .flagValues).join release.name) = .ok paths ∧
        paths.mapM (source.readValue directory) = .ok values ∧
        c = ⟨directory.displayPath file, index, release, values⟩ := by
  constructor
  · intro h
    obtain ⟨release, hrelease, h⟩ := bind_eq_ok.mp h
    by_cases hstem : file.fileStem = some release.name
    · simp only [hstem, ne_eq, not_true_eq_false, if_false] at h
      obtain ⟨paths, hpaths, h⟩ := bind_eq_ok.mp h
      obtain ⟨values, hvalues, h⟩ := bind_eq_ok.mp h
      cases h
      exact ⟨release, paths, values, hrelease, hstem, hpaths, hvalues, rfl⟩
    · simp only [ne_eq, hstem, not_false_eq_true, if_true] at h
      cases h
  · rintro ⟨release, paths, values, hrelease, hstem, hpaths, hvalues, rfl⟩
    refine bind_eq_ok.mpr ⟨release, hrelease, ?_⟩
    simp only [hstem, ne_eq, not_true_eq_false, if_false]
    exact bind_eq_ok.mpr ⟨paths, hpaths, bind_eq_ok.mpr ⟨values, hvalues, rfl⟩⟩

/-- No input file has a backslash in its path. -/
lemma backslash_notMem_of_inputFiles {directory : Path} {files : List Path}
    (h : source.inputFiles directory = .ok files) (hfile : file ∈ files) :
    '\\' ∉ file.text.toList := by
  obtain ⟨-, _, _, text, -, -, rfl⟩ :=
    FileTree.exists_of_mem_filesBelow (mapError_eq_ok.mp h) hfile
  exact Path.backslash_notMem_ofText text

/-! ### Single changes of the registry -/

variable {aliases : List Alias} {registry registry' : Registry}

/-- Nothing but the aliases changes, also where the aliases of a map file stop with an error. -/
lemma preserves_loadAliases {Q : Registry → Prop}
    (h : ∀ registry aliases, Q registry → Q { registry with aliases }) :
    Preserves Q (loadAliases path aliases) := by
  refine preserves_forM fun entry => preserves_get_bind fun registry hQ => ?_
  have hinsert : Preserves Q (modify fun registry => { registry with
      aliases := registry.aliases.insert entry.name entry.target } : Session PUnit) :=
    preserves_modify fun registry => h registry _
  cases registry.aliases.get? entry.name with
  | none => exact hinsert registry hQ
  | some previous => exact preserves_ite (preserves_throw_bind _) hinsert registry hQ

/-- The aliases of a map file are all added, or some had another target before. -/
lemma aliases_of_loadAliases (h : (loadAliases path aliases).run registry = (.ok (), registry')) :
    ∃ linked, registry' = { registry with aliases := linked } ∧ ∀ name target,
      linked.get? name = some target ↔
        registry.aliases.get? name = some target ∨ ⟨name, target⟩ ∈ aliases := by
  induction aliases generalizing registry with
  | nil =>
    cases h
    exact ⟨_, rfl, by simp⟩
  | cons entry rest ih =>
    obtain ⟨_, between, hentry, hrest⟩ := exists_of_run_bind_eq_ok h
    rw [run_get_bind] at hentry
    have hsame : ∀ previous, registry.aliases.get? entry.name = some previous →
        previous = entry.target := by
      intro previous hprevious
      by_cases hne : previous ≠ entry.target
      · simp only [hprevious, if_pos hne] at hentry
        cases hentry
      · exact Decidable.of_not_not hne
    obtain rfl : between = { registry with
        aliases := registry.aliases.insert entry.name entry.target } := by
      cases hget : registry.aliases.get? entry.name with
      | none =>
        simp only [hget] at hentry
        cases hentry
        rfl
      | some previous =>
        simp only [hget, hsame previous hget, ne_eq, not_true_eq_false, if_false] at hentry
        cases hentry
        rfl
    obtain ⟨linked, rfl, hlinked⟩ := ih hrest
    refine ⟨linked, rfl, fun name target => ?_⟩
    rw [hlinked, NameMap.get?_insert, List.mem_cons, ← or_assoc, Alias.mk.injEq]
    refine or_congr_left ?_
    split
    · next hname =>
      subst hname
      constructor
      · rintro ⟨⟩
        exact .inr ⟨rfl, rfl⟩
      · rintro (hold | ⟨-, rfl⟩)
        · rw [hsame target hold]
        · rfl
    · next hname => simp [hname]

end Source

/-- The release config with a contribution more, and its files. -/
def ReleaseConfig.contributed (config : ReleaseConfig) (c : Contribution) : ReleaseConfig :=
  { config.addContribution c with
    filesUsed := (config.filesUsed.add c.path).addAll (c.values.map Assignment.path) }

namespace Registry

/-- The release config that a contribution is for, without contributions if there is none yet. -/
def configFor (registry : Registry) (c : Contribution) : ReleaseConfig :=
  (registry.configs.get? c.file.name).getD (.new c.file.name c.index (Source.declaredKind c.file))

/-- The registry with a contribution more. -/
def contributed (registry : Registry) (c : Contribution) : Registry :=
  { registry with
    configs := registry.configs.insert c.file.name ((registry.configFor c).contributed c) }

/-- The contribution agrees with the ones before it, and is the first one of its directory. -/
structure MayContribute (registry : Registry) (c : Contribution) : Prop where
  kind_eq : (registry.configFor c).kind = Source.declaredKind c.file
  index_ne : ∀ other ∈ (registry.configFor c).contributions, other.index ≠ c.index

variable (registry : Registry)

/-- A contribution is added, or changes nothing. -/
lemma contribute_cases (c : Contribution) :
    registry.MayContribute c ∧
        (Source.contribute c).run registry = (.ok (), registry.contributed c) ∨
      ∃ e, (Source.contribute c).run registry = (.error e, registry) := by
  have hconfig : (registry.configs.get? c.file.name).getD
    (.new c.file.name c.index (Source.declaredKind c.file)) = registry.configFor c := rfl
  rw [Source.contribute, run_get_bind]
  simp only [hconfig]
  by_cases hkind : (registry.configFor c).kind = Source.declaredKind c.file
  · simp only [hkind, ne_eq, not_true_eq_false, if_false]
    cases hfind : (registry.configFor c).contributions.find? fun other => other.index = c.index with
    | none =>
      have hindex : ∀ other ∈ (registry.configFor c).contributions, other.index ≠ c.index := by
        simpa using hfind
      exact .inl ⟨⟨hkind, hindex⟩, rfl⟩
    | some existing => exact .inr ⟨.duplicateContribution c.file.name c.path existing.path, rfl⟩
  · simp only [ne_eq, hkind, not_false_eq_true, if_true]
    exact .inr ⟨.kindMismatch c.file.name c.path (registry.configFor c).kind
      (Source.declaredKind c.file), rfl⟩

/-- A declaration is new, or repeats one of the same directory, or changes nothing. -/
lemma declareFlag_cases (declaration : FlagDeclaration) (index : Nat) (path : String) :
    registry.flags.get? declaration.name = none ∧
        (Source.declareFlag declaration index path).run registry = (.ok (), { registry with
          flags := registry.flags.put (.declare declaration (some index) path) }) ∨
      (∃ flag, registry.flags.get? declaration.name = some flag ∧
        flag.declarationIndex = some index ∧ flag.declaration = declaration ∧
        (Source.declareFlag declaration index path).run registry = (.ok (), registry)) ∨
      ∃ e, (Source.declareFlag declaration index path).run registry = (.error e, registry) := by
  rw [Source.declareFlag, run_get_bind]
  cases hget : registry.flags.get? declaration.name with
  | none => exact .inl ⟨rfl, rfl⟩
  | some flag =>
    by_cases hrepeats : flag.declarationIndex ≠ some index ∨ flag.declaration ≠ declaration
    · refine .inr (.inr ⟨.flagAlreadyDeclared declaration.name path flag.declaredIn, ?_⟩)
      simp only [if_pos hrepeats]
      rfl
    · obtain ⟨hindex, hdeclaration⟩ := not_or.mp hrepeats
      have hindex := Decidable.of_not_not hindex
      have hdeclaration := Decidable.of_not_not hdeclaration
      refine .inr (.inl ⟨flag, rfl, hindex, hdeclaration, ?_⟩)
      simp only [if_neg hrepeats]
      rfl

end Registry

/-- A scan that succeeds reads all directories, and links the aliases of what it read. -/
lemma Source.exists_run_of_scan {source : Source} {directories : List String} {registry : Registry}
    (h : source.scan directories = .ok registry) :
    ∃ loaded, (directories.forM source.loadDirectory).run Registry.empty = (.ok (), loaded) ∧
      loaded.linkAliases = .ok registry := by
  simp only [scan] at h
  split at h
  · next loaded hrun => exact ⟨loaded, hrun, h⟩
  · cases h

/-! ### Invariants of a load -/

/-- `Q` holds before and after a load, and `R` with the index of the load behind the point where its
directory is added: each change of a load keeps them. -/
structure LoadInvariant (Q : Registry → Prop) (R : Nat → Registry → Prop) : Prop where
  aliases : ∀ registry aliases, Q registry → Q { registry with aliases }
  directory : ∀ registry display filesUsed, Q registry → display ∉ registry.directories →
    R registry.directories.length { registry with
      directories := registry.directories ++ [display], filesUsed }
  files : ∀ index registry filesUsed, R index registry → R index { registry with filesUsed }
  declare : ∀ index registry declaration path, R index registry → declaration.Valid →
    registry.flags.get? declaration.name = none → R index { registry with
      flags := registry.flags.put (.declare declaration (some index) path) }
  contribute : ∀ registry c, R c.index registry → registry.MayContribute c →
    Path.Flat c.file.name → R c.index (registry.contributed c)
  maps : ∀ index registry maps, R index registry → R index { registry with maps }
  stop : ∀ index registry, R index registry → Q registry

namespace LoadInvariant

variable {Q : Registry → Prop} {R : Nat → Registry → Prop} (invariant : LoadInvariant Q R)
include invariant

lemma preserves_declareFlag {declaration : FlagDeclaration} (hvalid : declaration.Valid)
    (index : Nat) (path : String) :
    Preserves (R index) (Source.declareFlag declaration index path) := by
  intro registry h
  rcases registry.declareFlag_cases declaration index path with
    ⟨hnew, hrun⟩ | ⟨_, _, _, _, hrun⟩ | ⟨_, hrun⟩
  · rw [hrun]
    exact invariant.declare index registry declaration path h hvalid hnew
  · rw [hrun]
    exact h
  · rw [hrun]
    exact h

lemma preserves_contribute {c : Contribution} (hname : Path.Flat c.file.name) :
    Preserves (R c.index) (Source.contribute c) := by
  intro registry h
  rcases registry.contribute_cases c with ⟨hmay, hrun⟩ | ⟨_, hrun⟩
  · rw [hrun]
    exact invariant.contribute registry c h hmay hname
  · rw [hrun]
    exact h

variable (source : Source) (directory : ConfigDirectory) (index : Nat)

lemma preserves_loadDeclarations (defaultContainers : List String) :
    Preserves (R index) (source.loadDeclarations directory index defaultContainers) := by
  refine preserves_bind (preserves_liftExcept _) fun files => preserves_forM fun file => ?_
  refine preserves_liftExcept_bind fun declaration hdeclaration => ?_
  obtain ⟨_, -, -, hvalid⟩ := Source.readDeclaration_eq_ok.mp hdeclaration
  refine preserves_bind (invariant.preserves_declareFlag hvalid index _) fun _ => ?_
  exact preserves_modify fun registry => invariant.files index registry _

lemma preserves_loadContributions :
    Preserves (R index) (source.loadContributions directory index) := by
  refine preserves_liftExcept_bind fun files hfiles => preserves_forM_of_mem fun file hfile => ?_
  refine preserves_liftExcept_bind fun c hc => ?_
  obtain ⟨release, _, _, -, hstem, -, -, rfl⟩ := Source.readContribution_eq_ok.mp hc
  have hbackslash := Source.backslash_notMem_of_inputFiles hfiles hfile
  exact invariant.preserves_contribute (c := ⟨_, index, release, _⟩)
    (Path.flat_of_fileStem hstem hbackslash)

/-- A load keeps the invariant, wherever it stops. -/
theorem preserves_loadDirectory (name : String) : Preserves Q (source.loadDirectory name) := by
  intro registry h
  rw [Source.loadDirectory, run_get_bind, run_get_bind]
  by_cases hdisplay : (source.directory name).display.text ∈ registry.directories
  · simp only [if_pos hdisplay]
    exact preserves_throw_bind _ registry h
  simp only [if_neg hdisplay]
  split
  · exact preserves_throw_bind _ registry h
  rw [run_liftExcept_bind]
  split
  · next map _ =>
    -- the aliases do not change the index that the directory gets
    let Before (later : Registry) := Q later ∧ later.directories = registry.directories
    have haliases : ∀ later aliases, Before later → Before { later with aliases } :=
      fun later aliases hlater => ⟨invariant.aliases later aliases hlater.1, hlater.2⟩
    refine run_bind_induction (P := Before)
      (Source.preserves_loadAliases haliases registry ⟨h, rfl⟩) (fun _ hlater => hlater.1) ?_
    rintro - later ⟨hlater, hdirectories⟩
    rw [← hdirectories] at hdisplay ⊢
    rw [run_modify_bind]
    -- behind this point the index is that of the last directory
    refine invariant.stop later.directories.length _ ?_
    refine preserves_bind (Q := R later.directories.length)
      (invariant.preserves_loadDeclarations source _ _ _) (fun _ => ?_) _
      (invariant.directory later _ _ hlater hdisplay)
    refine preserves_bind (invariant.preserves_loadContributions source _ _) fun _ => ?_
    exact preserves_modify fun later => invariant.maps _ later _
  · exact h

variable {source}

/-- What was read from config directories has the invariant. -/
lemma of_run (hstart : Q Registry.empty) {directories : List String} {loaded : Registry}
    (hrun : (directories.forM source.loadDirectory).run Registry.empty = (.ok (), loaded)) :
    Q loaded := by
  have hread : Preserves Q (directories.forM source.loadDirectory) :=
    preserves_forM (invariant.preserves_loadDirectory source)
  have hloaded := hread Registry.empty hstart
  rwa [hrun] at hloaded

end LoadInvariant

end ReleaseFlags
