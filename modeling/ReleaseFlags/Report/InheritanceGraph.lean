import ReleaseFlags.Registry.Basic

/-!
The inheritance graph of all release configs, in the dot language.

Edges point from a config to what it inherits; the root config is left out. An
alias that is inherited gets a dashed edge to its target, and a prior stage a
dotted one. The lines between the header and the end are sorted.
-/

namespace ReleaseFlags

namespace InheritanceGraph

/-- A name in double quotes. -/
def node (name : String) : String := "\"" ++ name ++ "\""

/-- An edge between two names. -/
def edge (source target : String) : String := node source ++ " -> " ++ node target

/-- The parents of a config that the graph shows. -/
def parents (config : ReleaseConfig) : List String :=
  if config.name = rootName then [] else config.inheritNames.filter (· ≠ rootName)

/-- The colour of a config. -/
def fillColour (config : ReleaseConfig) : String :=
  match config.kind with
  | .buildVariant => "#d9d9d9"
  | .explicitInheritance => "#ffffcc"
  | _ => if config.disallowLunchUse then "#ffcccc" else "white"

/-- The label of a config: its name and, on a second line, its aliases. -/
def label (config : ReleaseConfig) : String :=
  if config.otherNames.isEmpty then config.name
  else config.name ++ "\\n" ++ " ".intercalate config.otherNames

/-- The lines of one config. -/
def configLines (config : ReleaseConfig) : List String :=
  if config.name = rootName then []
  else
    (parents config).map (edge config.name) ++
    config.priorStages.names.map (fun stage =>
      edge config.name stage ++ " [ style=dotted, color=\"#ffad99\" ]") ++
    [node config.name ++ " [ label=\"" ++ label config ++ "\", fillcolor=\"" ++
      fillColour config ++ "\" ]"]

/-- The line of an alias that some config inherits. -/
def aliasLine (name target : String) : String := edge name target ++ " [ style=dashed ]"

/-- The lines of the aliases that are inherited. -/
def aliasLines (registry : Registry) : List String :=
  let inherited := registry.configs.values.flatMap parents
  (registry.aliases.entries.filter fun entry => entry.1 ∈ inherited).map fun entry =>
    aliasLine entry.1 entry.2

/-- The lines before the first node. -/
def header : List String :=
  ["digraph \x7b",
    "graph [ ratio=.5 ];",
    "node [ shape=box, style=filled, fillcolor=white, colorscheme=svg, color=black ];"]

/-- The text of the graph. -/
def render (registry : Registry) : String :=
  let lines := registry.configs.values.flatMap configLines ++ aliasLines registry
  "\n".intercalate (header ++ (NameSet.ofNames lines).names ++ ["\x7d"]) ++ "\n"

end InheritanceGraph

end ReleaseFlags
