/-!
Finite maps from names, held as an association list in strictly increasing
order of the names.

The order is the order of code points, which for text in UTF-8 is also the order
of bytes. Since every map has one such list, two maps with the same entries are
equal, and whatever is produced by walking a map is in name order.
-/

namespace ReleaseFlags

/-- A list of named entries in strictly increasing order of the names. -/
def Increasing {β : Type} (entries : List (String × β)) : Prop :=
  entries.Pairwise fun a b => a.1 < b.1

/-- Puts an entry at its place in an increasing list; an entry of the same name is replaced. -/
def insertEntry {β : Type} (name : String) (value : β) :
    List (String × β) → List (String × β)
  | [] => [(name, value)]
  | (other, old) :: rest =>
    if name < other then (name, value) :: (other, old) :: rest
    else if name = other then (name, value) :: rest
    else (other, old) :: insertEntry name value rest

theorem fst_mem_of_mem_insertEntry {β : Type} {name : String} {value : β} {e : String × β}
    {entries : List (String × β)} (h : e ∈ insertEntry name value entries) :
    e.1 = name ∨ ∃ e' ∈ entries, e'.1 = e.1 := by
  induction entries with
  | nil =>
    simp only [insertEntry, List.mem_singleton] at h
    exact .inl (h ▸ rfl)
  | cons head rest ih =>
    obtain ⟨other, old⟩ := head
    simp only [insertEntry] at h
    split at h
    · rcases List.mem_cons.mp h with rfl | h
      · exact .inl rfl
      · exact .inr ⟨e, h, rfl⟩
    · split at h
      · rcases List.mem_cons.mp h with rfl | h
        · exact .inl rfl
        · exact .inr ⟨e, List.mem_cons_of_mem _ h, rfl⟩
      · rcases List.mem_cons.mp h with rfl | h
        · exact .inr ⟨_, List.mem_cons_self, rfl⟩
        · rcases ih h with h | ⟨e', he', heq⟩
          · exact .inl h
          · exact .inr ⟨e', List.mem_cons_of_mem _ he', heq⟩

theorem increasing_insertEntry {β : Type} (name : String) (value : β)
    {entries : List (String × β)} (h : Increasing entries) :
    Increasing (insertEntry name value entries) := by
  induction entries with
  | nil => exact List.pairwise_singleton _ _
  | cons head rest ih =>
    obtain ⟨other, old⟩ := head
    have hall := (List.pairwise_cons.mp h).1
    have hrest := (List.pairwise_cons.mp h).2
    simp only [insertEntry]
    split
    · next hlt =>
      refine List.pairwise_cons.mpr ⟨fun e he => ?_, h⟩
      rcases List.mem_cons.mp he with rfl | he
      · exact hlt
      · exact String.lt_trans hlt (hall e he)
    · next hlt =>
      split
      · next heq =>
        subst heq
        exact List.pairwise_cons.mpr ⟨hall, hrest⟩
      · next hne =>
        have hgt : other < name := by
          rcases String.le_total name other with hle | hle
          · exact absurd (String.le_antisymm hle (String.not_lt.mp hlt)) hne
          · rcases Decidable.em (other < name) with hlt' | hlt'
            · exact hlt'
            · exact absurd (String.le_antisymm (String.not_lt.mp hlt') hle) hne
        refine List.pairwise_cons.mpr ⟨fun e he => ?_, ih hrest⟩
        rcases fst_mem_of_mem_insertEntry he with heq | ⟨e', he', heq⟩
        · exact heq ▸ hgt
        · exact heq ▸ hall e' he'

theorem increasing_map {β γ : Type} (f : String × β → γ) {entries : List (String × β)}
    (h : Increasing entries) : Increasing (entries.map fun e => (e.1, f e)) :=
  List.Pairwise.map _ (fun _ _ hlt => hlt) h

theorem increasing_filter {β : Type} (keep : String × β → Bool) {entries : List (String × β)}
    (h : Increasing entries) : Increasing (entries.filter keep) :=
  List.Pairwise.filter keep h

/-- A finite map from names to values. -/
structure NameMap (β : Type) where
  /-- The entries, by increasing name. -/
  entries : List (String × β)
  increasing : Increasing entries
  deriving DecidableEq

namespace NameMap

variable {β γ : Type}

/-- The map without entries. -/
def empty : NameMap β := ⟨[], List.Pairwise.nil⟩

instance : Inhabited (NameMap β) := ⟨empty⟩

instance : EmptyCollection (NameMap β) := ⟨empty⟩

/-- The value of a name. -/
def get? (m : NameMap β) (name : String) : Option β := m.entries.lookup name

def contains (m : NameMap β) (name : String) : Bool := (m.get? name).isSome

/-- Sets the value of a name, whatever it was before. -/
def insert (m : NameMap β) (name : String) (value : β) : NameMap β :=
  ⟨insertEntry name value m.entries, increasing_insertEntry name value m.increasing⟩

/-- Removes the entry of a name, if there is one. -/
def erase (m : NameMap β) (name : String) : NameMap β :=
  ⟨m.entries.filter fun e => e.1 ≠ name, increasing_filter _ m.increasing⟩

/-- Applies a function to every value. -/
def mapEntries (m : NameMap β) (f : String → β → γ) : NameMap γ :=
  ⟨m.entries.map fun e => (e.1, f e.1 e.2), increasing_map (fun e => f e.1 e.2) m.increasing⟩

/-- Applies a function to the value of one name, if it has one. -/
def modify (m : NameMap β) (name : String) (f : β → β) : NameMap β :=
  m.mapEntries fun other value => if other = name then f value else value

/-- The names, increasing. -/
def names (m : NameMap β) : List String := m.entries.map Prod.fst

/-- The values, by increasing name. -/
def values (m : NameMap β) : List β := m.entries.map Prod.snd

def size (m : NameMap β) : Nat := m.entries.length

/-- The map of the listed entries; of entries with the same name the last one counts. -/
def ofList (entries : List (String × β)) : NameMap β :=
  entries.foldl (fun m e => m.insert e.1 e.2) empty

end NameMap

/-- A finite set of names: a map that only knows which names it has. -/
abbrev NameSet := NameMap Unit

namespace NameSet

/-- Adds a name to the set. -/
def add (s : NameSet) (name : String) : NameSet := s.insert name ()

/-- Adds every name of a list. -/
def addAll (s : NameSet) (names : List String) : NameSet := names.foldl add s

def union (s t : NameSet) : NameSet := s.addAll t.names

def ofNames (names : List String) : NameSet := addAll NameMap.empty names

end NameSet

end ReleaseFlags
