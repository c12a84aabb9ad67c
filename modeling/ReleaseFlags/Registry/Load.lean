import ReleaseFlags.FileTree.Walk
import ReleaseFlags.Registry.Basic

/-!
Reading config directories into the registry.

A config directory holds

  release_config_map.toml
  flag_declarations/**/*.toml
  release_configs/**/<release>.toml
  flag_values/<release>/**/<FLAG>.toml

and its place in the list of directories is its index. Outputs name files by the
directory as it was given, wherever the tree is stored.
-/

namespace ReleaseFlags

/-- The entries of a config directory. -/
inductive DirectoryEntry where
  /-- The map file. -/
  | map
  | flagDeclarations
  | releaseConfigs
  /-- The values of flags, in one directory for each release config. -/
  | flagValues
  deriving DecidableEq, Repr

namespace DirectoryEntry

/-- The name of the entry. -/
def name : DirectoryEntry → String
  | map => "release_config_map.toml"
  | flagDeclarations => "flag_declarations"
  | releaseConfigs => "release_configs"
  | flagValues => "flag_values"

/-- All entries. -/
def all : List DirectoryEntry := [map, flagDeclarations, releaseConfigs, flagValues]

end DirectoryEntry

/-- The extension of the files that are read. -/
def inputExtension : String := "toml"

/-- A source tree, with the directory that relative config directories are below. -/
structure Source where
  tree : FileTree
  root : Path

/-- A config directory. -/
structure ConfigDirectory where
  /-- The path where it is read. -/
  path : Path
  /-- The path as given, which outputs show. -/
  display : Path
  deriving DecidableEq, Repr

namespace ConfigDirectory

/-- The path of an entry. -/
def entry (directory : ConfigDirectory) (e : DirectoryEntry) : Path := directory.path.join e.name

/-- How outputs show the path of a file below the directory. -/
def displayPath (directory : ConfigDirectory) (file : Path) : String :=
  let below := (Path.stripFront directory.path.text.toList file.text.toList).getD file.text.toList
  (directory.display.join (.ofList (below.dropWhile (· = '/')))).text

end ConfigDirectory

namespace Source

/-- The config directory of a name. -/
def directory (source : Source) (name : String) : ConfigDirectory where
  path := (Path.ofText name).under source.root
  display := Path.ofText name

/-- The input files below an entry of a config directory. -/
def inputFiles (source : Source) (directory : Path) : Except Error (List Path) :=
  (source.tree.filesBelow directory inputExtension).mapError .file

/-- The message in a file. -/
def load {α : Type} (source : Source) (decode : Format → Decoder α) (file : Path) :
    Except Error α :=
  (source.tree.load decode file).mapError .file

/-! ### Aliases -/

/-- Adds the aliases of a map file, up to the first one that has another target already. -/
def loadAliases (path : String) (aliases : List Alias) : Session Unit :=
  aliases.forM fun entry => do
    match (← get).aliases.get? entry.name with
    | some previous =>
      if previous ≠ entry.target then
        throw (.aliasRedefined entry.name previous entry.target path)
    | none => pure ()
    modify fun registry => { registry with
      aliases := registry.aliases.insert entry.name entry.target }

/-! ### Declarations -/

/-- The declaration in a file. Where it lists no containers it gets the default ones. -/
def readDeclaration (source : Source) (defaultContainers : List String) (file : Path)
    (path : String) : Except Error FlagDeclaration := do
  let declaration ← source.load FlagDeclaration.decode file
  let declaration :=
    if declaration.containers.isEmpty then { declaration with containers := defaultContainers }
    else declaration
  (declaration.check path).mapError .flag
  if declaration.name = KnownFlag.aconfigValueSets then
    throw (.reservedFlag declaration.name path)
  if declaration.value = .obsolete then throw (.redactedByDefault declaration.name path)
  return declaration

/-- Adds a declared flag. The same directory may repeat a declaration unchanged. -/
def declareFlag (declaration : FlagDeclaration) (index : Nat) (path : String) :
    Session Unit := do
  match (← get).flags.get? declaration.name with
  | some existing =>
    if existing.declarationIndex ≠ some index ∨ existing.declaration ≠ declaration then
      throw (.flagAlreadyDeclared declaration.name path existing.declaredIn)
  | none =>
    modify fun registry => { registry with
      flags := registry.flags.put (.declare declaration (some index) path) }

/-- Reads the declarations of a config directory. -/
def loadDeclarations (source : Source) (directory : ConfigDirectory) (index : Nat)
    (defaultContainers : List String) : Session Unit := do
  let files ← liftExcept (source.inputFiles (directory.entry .flagDeclarations))
  files.forM fun file => do
    let path := directory.displayPath file
    let declaration ← liftExcept (source.readDeclaration defaultContainers file path)
    declareFlag declaration index path
    modify fun registry => { registry with filesUsed := registry.filesUsed.add path }

/-! ### Contributions -/

/-- The value that a file gives to the flag that it is named after. -/
def readValue (source : Source) (directory : ConfigDirectory) (file : Path) :
    Except Error Assignment := do
  let path := directory.displayPath file
  let value ← source.load FlagValueFile.decode file
  if file.fileStem ≠ some value.name then throw (.valueFileName value.name path)
  return value.assignment path

/-- The contribution in a release file, with the values of the directory for it. -/
def readContribution (source : Source) (directory : ConfigDirectory) (index : Nat)
    (file : Path) : Except Error Contribution := do
  let path := directory.displayPath file
  let release ← source.load ReleaseFile.decode file
  if file.fileStem ≠ some release.name then throw (.releaseFileName release.name path)
  let values ← source.inputFiles ((directory.entry .flagValues).join release.name)
  return ⟨path, index, release, ← values.mapM (source.readValue directory)⟩

/-- The kind that a release file declares. Without one, or with the unspecified one, the
config is a release. -/
def declaredKind (file : ReleaseFile) : ReleaseKind :=
  match file.kind with
  | none | some .unspecified => .release
  | some kind => kind

/-- Adds a contribution to the release config that it names. -/
def contribute (c : Contribution) : Session Unit := do
  let name := c.file.name
  let kind := declaredKind c.file
  let config := ((← get).configs.get? name).getD (.new name c.index kind)
  if config.kind ≠ kind then throw (.kindMismatch name c.path config.kind kind)
  match config.contributions.find? fun other => other.index = c.index with
  | some existing => throw (.duplicateContribution name c.path existing.path)
  | none =>
    let config := { config.addContribution c with
      filesUsed := (config.filesUsed.add c.path).addAll (c.values.map Assignment.path) }
    modify fun registry => { registry with configs := registry.configs.insert name config }

/-- Reads the release files of a config directory. -/
def loadContributions (source : Source) (directory : ConfigDirectory) (index : Nat) :
    Session Unit := do
  let files ← liftExcept (source.inputFiles (directory.entry .releaseConfigs))
  files.forM fun file => do
    contribute (← liftExcept (source.readContribution directory index file))

/-! ### Directories -/

/-- Reads a config directory at the next index. -/
def loadDirectory (source : Source) (name : String) : Session Unit := do
  let directory := source.directory name
  let display := directory.display.text
  let index := (← get).directories.length
  if display ∈ (← get).directories then throw (.duplicateDirectory display)
  let mapFile := directory.entry .map
  let path := directory.displayPath mapFile
  if !source.tree.isFile mapFile then throw (.missingMap path)
  let map ← liftExcept (source.load DirectoryMap.decode mapFile)
  loadAliases path map.aliases
  modify fun registry => { registry with
    directories := registry.directories ++ [display]
    filesUsed := registry.filesUsed.add path }
  source.loadDeclarations directory index map.defaultContainers
  source.loadContributions directory index
  modify fun registry => { registry with maps := registry.maps ++ [⟨display, path, map⟩] }

/-- Reads config directories, in order, and links the aliases. -/
def scan (source : Source) (directories : List String) : Except Error Registry :=
  match (directories.forM source.loadDirectory).run Registry.empty with
  | (.ok (), registry) => registry.linkAliases
  | (.error e, _) => .error e

end Source

end ReleaseFlags
