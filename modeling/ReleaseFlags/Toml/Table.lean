import ReleaseFlags.Data

/-!
Tables under construction while a TOML document is read.

A table may come into being in three ways, and the way decides what may still be
added to it: a table with its own header is closed to dotted keys from other
tables, a table implied by a longer header may still get its own header, and a
table made by a dotted key is open to dotted keys only.
-/

namespace ReleaseFlags

namespace Toml

/-- How a table came into being. -/
inductive Origin where
  /-- By a header of its own. -/
  | header
  /-- By the header of a table below it. -/
  | implied
  /-- By a dotted key. -/
  | dotted
  deriving DecidableEq

/-- What a name in a table stands for. -/
inductive Node where
  /-- A complete value, to which nothing is added. -/
  | value (data : Data)
  | table (origin : Origin) (entries : List (String × Node))
  /-- The tables of an array of tables, in order. -/
  | tables (items : List (List (String × Node)))

/-- The entries of a table, in the order of the document. -/
abbrev Entries := List (String × Node)

/-- Replaces the node of a name. -/
def replaceNode (name : String) (node : Node) (entries : Entries) : Entries :=
  entries.map fun entry => if entry.1 = name then (name, node) else entry

/-- Changes the table that a path of headers leads to. Missing tables are implied, and an
array of tables leads on through its last table. -/
def updateTable (change : Entries → Option Entries) : List String → Entries → Option Entries
  | [], entries => change entries
  | name :: path, entries =>
    match entries.lookup name with
    | none => do
      let inner ← updateTable change path []
      return entries ++ [(name, .table .implied inner)]
    | some (.table origin inner) => do
      let inner ← updateTable change path inner
      return replaceNode name (.table origin inner) entries
    | some (.tables items) => do
      let inner ← updateTable change path (← items.getLast?)
      return replaceNode name (.tables (items.dropLast ++ [inner])) entries
    | some (.value _) => none

/-- Adds a value under a dotted key. All tables on the way must be made by dotted keys,
except that the key may lead on through the last table of an array and through tables that
are only implied. -/
def addValue (name : String) (data : Data) : List String → Entries → Option Entries
  | [], entries =>
    if (entries.lookup name).isSome then none else some (entries ++ [(name, .value data)])
  | part :: path, entries =>
    match entries.lookup part with
    | none => do
      let inner ← addValue name data path []
      return entries ++ [(part, .table .dotted inner)]
    | some (.table origin inner) =>
      if origin = .header ∨ (path = [] ∧ origin ≠ .dotted) then none
      else do
        let inner ← addValue name data path inner
        return replaceNode part (.table origin inner) entries
    | some (.tables items) =>
      if path = [] then none
      else do
        let inner ← addValue name data path (← items.getLast?)
        return replaceNode part (.tables (items.dropLast ++ [inner])) entries
    | some (.value _) => none

/-- Gives a table its own header. -/
def defineTable (name : String) (entries : Entries) : Option Entries :=
  match entries.lookup name with
  | none => some (entries ++ [(name, .table .header [])])
  | some (.table .implied inner) => some (replaceNode name (.table .header inner) entries)
  | some _ => none

/-- Begins a new table in an array of tables. -/
def appendTable (name : String) (entries : Entries) : Option Entries :=
  match entries.lookup name with
  | none => some (entries ++ [(name, .tables [[]])])
  | some (.tables items) => some (replaceNode name (.tables (items ++ [[]])) entries)
  | some _ => none

mutual

/-- The data of a node. -/
def Node.data : Node → Data
  | .value data => data
  | .table _ entries => .record (entriesData entries)
  | .tables items => .list (tablesData items)

/-- The members of a table. -/
def entriesData : List (String × Node) → List (Option String × Data)
  | [] => []
  | (name, node) :: entries => (some name, node.data) :: entriesData entries

/-- The tables of an array. -/
def tablesData : List (List (String × Node)) → List Data
  | [] => []
  | entries :: items => .record (entriesData entries) :: tablesData items

end

end Toml

end ReleaseFlags
