import ReleaseFlags.Proofs.Outcome
import ReleaseFlags.Proofs.NameMap
import ReleaseFlags.Registry.Load

/-!
# The files that all configs share

Reading a config directory adds its map file and its declaration files to the files that every
config depends on.  A session that succeeds adds exactly these (`Adds`), whatever else it does to
the registry, so a scan that succeeds gives the map and declaration files of all directories
(`mem_filesUsed_of_scan`).
-/

namespace ReleaseFlags

/-- The file is the map file of the config directory, or declares a flag there. -/
def Source.Shares (source : Source) (name file : String) : Prop :=
  let directory := source.directory name
  file = directory.displayPath (directory.entry .map) ∨
    ∃ paths, source.inputFiles (directory.entry .flagDeclarations) = .ok paths ∧
      ∃ path ∈ paths, file = directory.displayPath path

/-! ### Sessions -/

section Sessions

variable {α β : Type} {session : Session α} {next : α → Session β} {added more : String → Prop}

/-- If the session succeeds, the files that all configs share are those before it and the added
ones. -/
def Adds (added : String → Prop) (session : Session α) : Prop :=
  ∀ registry a registry', session.run registry = (.ok a, registry') →
    ∀ file, file ∈ registry'.filesUsed.names ↔ file ∈ registry.filesUsed.names ∨ added file

/-- The session leaves the files that all configs share. -/
def AddsNothing (session : Session α) : Prop := Adds (fun _ => False) session

lemma Adds.congr (h : Adds added session) (hsame : ∀ file, added file ↔ more file) :
    Adds more session := by
  intro registry a registry' hrun file
  rw [h registry a registry' hrun, hsame]

lemma adds_pure (a : α) : AddsNothing (pure a) := by
  rintro registry _ _ ⟨⟩ file
  simp

lemma adds_bind (h : Adds added session) (hnext : ∀ a, Adds more (next a)) :
    Adds (fun file => added file ∨ more file) (session >>= next) := by
  intro registry b registry' hrun file
  obtain ⟨a, between, hfirst, hrest⟩ := exists_of_run_bind_eq_ok hrun
  rw [hnext a between b registry' hrest, h registry a between hfirst, or_assoc]

lemma addsNothing_bind (h : AddsNothing session) (hnext : ∀ a, Adds added (next a)) :
    Adds added (session >>= next) :=
  (adds_bind h hnext).congr fun file => by simp

lemma adds_bind_nothing (h : Adds added session) (hnext : ∀ a, AddsNothing (next a)) :
    Adds added (session >>= next) :=
  (adds_bind h hnext).congr fun file => by simp

lemma adds_get_bind {next : Registry → Session β} (h : ∀ registry, Adds added (next registry)) :
    Adds added (get >>= next) := by
  intro registry b registry' hrun
  rw [run_get_bind] at hrun
  exact h registry registry b registry' hrun

lemma adds_liftExcept_bind {outcome : Except Error α}
    (h : ∀ a, outcome = .ok a → Adds added (next a)) :
    Adds added (liftExcept outcome >>= next) := by
  intro registry b registry' hrun
  rw [run_liftExcept_bind] at hrun
  cases outcome with
  | ok a => exact h a rfl registry b registry' hrun
  | error e => cases hrun

/-- A session that fails adds whatever is said of it. -/
lemma adds_throw (e : Error) : Adds added (throw e : Session α) := by
  intro registry a registry' hrun
  cases hrun

lemma adds_throw_bind (e : Error) : Adds added ((throw e : Session α) >>= next) := by
  intro registry b registry' hrun
  rw [run_bind_of_error (rfl : (throw e : Session α).run registry = (.error e, registry))] at hrun
  cases hrun

lemma adds_ite {c : Prop} [Decidable c] {yes no : Session α} (hyes : Adds added yes)
    (hno : Adds added no) : Adds added (if c then yes else no) := by
  split
  · exact hyes
  · exact hno

lemma adds_modify {f : Registry → Registry}
    (h : ∀ registry file, file ∈ (f registry).filesUsed.names ↔
      file ∈ registry.filesUsed.names ∨ added file) : Adds added (modify f) := by
  rintro registry _ _ ⟨⟩ file
  exact h registry file

lemma addsNothing_modify {f : Registry → Registry}
    (h : ∀ registry, (f registry).filesUsed = registry.filesUsed) : AddsNothing (modify f) :=
  adds_modify fun registry file => by rw [h, or_false]

lemma adds_forM {items : List α} {f : α → Session PUnit} {added : α → String → Prop}
    (h : ∀ a, Adds (added a) (f a)) :
    Adds (fun file => ∃ a ∈ items, added a file) (items.forM f) := by
  induction items with
  | nil => exact (adds_pure _).congr fun file => by simp
  | cons first rest ih => exact (adds_bind (h first) fun _ => ih).congr fun file => by simp

lemma addsNothing_forM {items : List α} {f : α → Session PUnit} (h : ∀ a, AddsNothing (f a)) :
    AddsNothing (items.forM f) :=
  (adds_forM h).congr fun file => by simp

end Sessions

/-! ### Reading config directories -/

namespace Source

lemma addsNothing_loadAliases (path : String) (aliases : List Alias) :
    AddsNothing (loadAliases path aliases) := by
  refine addsNothing_forM fun entry => adds_get_bind fun registry => ?_
  have hinsert : AddsNothing (modify fun registry => { registry with
      aliases := registry.aliases.insert entry.name entry.target } : Session PUnit) :=
    addsNothing_modify fun _ => rfl
  cases registry.aliases.get? entry.name with
  | none => exact hinsert
  | some previous => exact adds_ite (adds_throw_bind _) hinsert

lemma addsNothing_declareFlag (declaration : FlagDeclaration) (index : Nat) (path : String) :
    AddsNothing (declareFlag declaration index path) := by
  refine adds_get_bind fun registry => ?_
  cases registry.flags.get? declaration.name with
  | none => exact addsNothing_modify fun _ => rfl
  | some existing => exact adds_ite (adds_throw _) (adds_pure _)

lemma addsNothing_contribute (c : Contribution) : AddsNothing (contribute c) := by
  refine adds_get_bind fun registry => adds_ite (adds_throw_bind _) ?_
  split
  · exact adds_throw _
  · exact addsNothing_modify fun _ => rfl

variable (source : Source) (directory : ConfigDirectory) (index : Nat)

lemma addsNothing_loadContributions :
    AddsNothing (source.loadContributions directory index) :=
  adds_liftExcept_bind fun _ _ => addsNothing_forM fun _ =>
    adds_liftExcept_bind fun c _ => addsNothing_contribute c

lemma adds_addFile {f : Registry → Registry} {path : String}
    (h : ∀ registry, (f registry).filesUsed = registry.filesUsed.add path) :
    Adds (fun file => file = path) (modify f) :=
  adds_modify fun registry file => by rw [h, NameSet.mem_add, or_comm]

lemma adds_loadDeclarations (defaultContainers : List String) :
    Adds (fun file => ∃ paths, source.inputFiles (directory.entry .flagDeclarations) = .ok paths ∧
        ∃ path ∈ paths, file = directory.displayPath path)
      (source.loadDeclarations directory index defaultContainers) := by
  refine adds_liftExcept_bind fun paths hpaths => ?_
  have hfiles (path : Path) : Adds (fun file => file = directory.displayPath path) (do
      let declaration ← liftExcept
        (source.readDeclaration defaultContainers path (directory.displayPath path))
      declareFlag declaration index (directory.displayPath path)
      modify fun registry => { registry with
        filesUsed := registry.filesUsed.add (directory.displayPath path) } : Session PUnit) :=
    adds_liftExcept_bind fun declaration _ =>
      addsNothing_bind (addsNothing_declareFlag declaration index _) fun _ =>
        adds_addFile fun _ => rfl
  refine (adds_forM hfiles).congr fun file => ?_
  simp [hpaths]

/-- Reading a config directory adds its map file and its declaration files. -/
theorem adds_loadDirectory (name : String) :
    Adds (source.Shares name) (source.loadDirectory name) := by
  refine adds_get_bind fun registry => adds_get_bind fun _ => ?_
  refine adds_ite (adds_throw_bind _) (adds_ite (adds_throw_bind _) ?_)
  refine adds_liftExcept_bind fun map _ => ?_
  refine addsNothing_bind (addsNothing_loadAliases _ _) fun _ => ?_
  have hdeclarations := source.adds_loadDeclarations (source.directory name)
    registry.directories.length map.defaultContainers
  refine adds_bind (adds_addFile fun _ => rfl) fun _ => adds_bind_nothing hdeclarations fun _ => ?_
  exact addsNothing_bind (source.addsNothing_loadContributions _ _) fun _ =>
    addsNothing_modify fun _ => rfl

/-- The files that all configs share after a scan are the map and declaration files of the config
directories. -/
theorem mem_filesUsed_of_scan {directories : List String} {registry : Registry}
    (h : source.scan directories = .ok registry) {file : String} :
    file ∈ registry.filesUsed.names ↔ ∃ name ∈ directories, source.Shares name file := by
  have hread : Adds (fun file => ∃ name ∈ directories, source.Shares name file)
      (directories.forM source.loadDirectory) :=
    adds_forM fun name => source.adds_loadDirectory name
  simp only [scan] at h
  split at h
  · next loaded hrun =>
    -- linking the aliases leaves the files
    obtain ⟨owners, -, h⟩ := bind_eq_ok.mp h
    cases h
    rw [hread _ _ _ hrun]
    simp [Registry.empty, NameMap.names, NameMap.empty]
  · cases h

end Source

end ReleaseFlags
