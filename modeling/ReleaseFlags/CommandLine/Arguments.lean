/-!
The arguments of the command line.

An option is written as `--name value` or `--name=value`. Names are never
abbreviated, a value that begins with a hyphen needs the second form, and only
`--map` may be repeated. An option that is not given takes its value from the
environment, if there is a variable for it, and otherwise from a default.
-/

namespace ReleaseFlags

/-- What the command line asks for. -/
structure Arguments where
  /-- The top of the source tree. -/
  top : String
  /-- The config directories, in order; none stands for the usual ones that exist. -/
  maps : List String
  /-- The name of the release config to resolve. -/
  release : String
  /-- The product, which file names mention. -/
  product : String
  buildVariant : Option String
  /-- The build variant config must be there when it is asked for. -/
  requireBuildVariant : Bool
  /-- The fallback stands in for a missing release config. -/
  allowMissing : Bool
  /-- The directory of the outputs, as seen from the top. -/
  outDir : String
  /-- Write the JSON reports. -/
  json : Bool
  /-- Write a makefile fragment for every release config. -/
  allMake : Bool
  /-- Write the inheritance graph. -/
  inheritance : Bool
  /-- Print the release configs that may be the target of a build, and do nothing else. -/
  list : Bool
  /-- Print the paths of the outputs. -/
  verbose : Bool
  deriving DecidableEq, Repr

/-- The options of the command line. -/
inductive OptionKey where
  | top
  | map
  | release
  | product
  | buildVariant
  | requireBuildVariant
  | allowMissing
  | outDir
  | json
  | allMake
  | inheritance
  | list
  | verbose
  | help
  | version
  deriving DecidableEq, Repr

namespace OptionKey

/-- True for an option with a value. -/
def takesValue : OptionKey → Bool
  | top | map | release | product | buildVariant | outDir | json => true
  | _ => false

/-- The long names. -/
def longNames : List (String × OptionKey) :=
  [("top", top), ("map", map), ("release", release), ("product", product),
    ("build-variant", buildVariant), ("require-build-variant", requireBuildVariant),
    ("allow-missing", allowMissing), ("out-dir", outDir), ("json", json), ("all-make", allMake),
    ("inheritance", inheritance), ("list", list), ("verbose", verbose), ("help", help),
    ("version", version)]

/-- The letters of the options that have one. -/
def letters : List (Char × OptionKey) := [('v', verbose), ('h', help), ('V', version)]

end OptionKey

/-- Options in the order in which they were given, each with its value; a switch has none. -/
abbrev GivenOptions := List (OptionKey × String)

/-- Why the arguments do not say what to do. -/
inductive ArgumentProblem where
  /-- They ask for help or for the version. -/
  | information (key : OptionKey)
  /-- They are malformed. -/
  | usage
  deriving DecidableEq, Repr

namespace GivenOptions

/-- Adds an option. Help and version end the reading; an option other than `--map` may not be
given twice, and the value of `--json` is a truth value. -/
def add (given : GivenOptions) (key : OptionKey) (value : String) :
    Except ArgumentProblem GivenOptions :=
  if key = .help ∨ key = .version then .error (.information key)
  else if key ≠ .map ∧ (given.lookup key).isSome then .error .usage
  else if key = .json ∧ value ≠ "true" ∧ value ≠ "false" then .error .usage
  else .ok (given ++ [(key, value)])

/-- Adds the switches of an argument of letters. -/
def addLetters (given : GivenOptions) : List Char → Except ArgumentProblem GivenOptions
  | [] => .ok given
  | letter :: rest =>
    match OptionKey.letters.lookup letter with
    | some key => do addLetters (← given.add key "") rest
    | none => .error .usage

/-- Reads arguments. -/
def read (given : GivenOptions) : List String → Except ArgumentProblem GivenOptions
  | [] => .ok given
  | argument :: rest =>
    match argument.toList with
    | ['-', '-'] => if rest.isEmpty then .ok given else .error .usage
    | '-' :: '-' :: option =>
      let name := String.ofList (option.takeWhile (· ≠ '='))
      match OptionKey.longNames.lookup name with
      | none => .error .usage
      | some key =>
        match option.dropWhile (· ≠ '=') with
        | _ :: value =>
          if key.takesValue then do read (← given.add key (.ofList value)) rest
          else .error .usage
        | [] =>
          if key.takesValue then
            match rest with
            | [] => .error .usage
            | value :: rest =>
              if value.toList.head? = some '-' ∧ value ≠ "-" then .error .usage
              else do read (← given.add key value) rest
          else do read (← given.add key "") rest
    | '-' :: letter :: letters => do read (← given.addLetters (letter :: letters)) rest
    | _ => .error .usage

end GivenOptions

namespace Arguments

/-- The environment variables that are read. -/
def variableNames : List String := ["TARGET_RELEASE", "TARGET_PRODUCT", "TARGET_BUILD_VARIANT"]

/-- The arguments that options and environment variables amount to. -/
def ofGiven (given : GivenOptions) (environment : String → Option String) : Arguments where
  top := (given.lookup .top).getD "."
  maps := given.filterMap fun option => if option.1 = .map then some option.2 else none
  release := ((given.lookup .release).or (environment "TARGET_RELEASE")).getD "trunk_staging"
  product := ((given.lookup .product).or (environment "TARGET_PRODUCT")).getD "product"
  buildVariant := (given.lookup .buildVariant).or (environment "TARGET_BUILD_VARIANT")
  requireBuildVariant := (given.lookup .requireBuildVariant).isSome
  allowMissing := (given.lookup .allowMissing).isSome
  outDir := (given.lookup .outDir).getD "out/soong/release-config"
  json := (given.lookup .json).getD "true" = "true"
  allMake := (given.lookup .allMake).isSome
  inheritance := (given.lookup .inheritance).isSome
  list := (given.lookup .list).isSome
  verbose := (given.lookup .verbose).isSome

/-- A line on how the program is called. -/
def usage : String :=
  "Usage: release-config " ++
    " ".intercalate (OptionKey.longNames.map fun (name, key) =>
      "[--" ++ name ++ (if key.takesValue then " VALUE]" else "]"))

/-- Reads the arguments. -/
def read (arguments : List String) (environment : String → Option String) :
    Except ArgumentProblem Arguments := do
  return ofGiven (← GivenOptions.read [] arguments) environment

end Arguments

end ReleaseFlags
