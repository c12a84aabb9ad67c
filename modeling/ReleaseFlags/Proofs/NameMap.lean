import Mathlib.Tactic.Lemma
import ReleaseFlags.NameMap

/-!
# Looking names up in finite maps

What each operation on a finite map does to the value of a name. Everything else about
maps is derived from these equations, so no later proof looks at the list of entries. In
particular, a map that is filled by appending to the lists of its keys is an index of what was
appended (`Indexes`).
-/

namespace ReleaseFlags

variable {β γ : Type}

lemma lookup_cons_ite (name key : String) (value : β) (entries : List (String × β)) :
    List.lookup name ((key, value) :: entries) =
      if name = key then some value else entries.lookup name := by
  rw [List.lookup_cons]
  by_cases h : name = key
  · subst h
    simp
  · have hbeq : (name == key) = false := by simpa using h
    simp [h, hbeq]

lemma lookup_insertEntry (name other : String) (value : β) (entries : List (String × β)) :
    (insertEntry name value entries).lookup other =
      if other = name then some value else entries.lookup other := by
  induction entries with
  | nil => exact lookup_cons_ite other name value []
  | cons head rest ih =>
    obtain ⟨key, old⟩ := head
    simp only [insertEntry]
    split
    · exact lookup_cons_ite other name value _
    · split
      · next hkey =>
        subst hkey
        simp only [lookup_cons_ite]
        split <;> rfl
      · next hkey =>
        simp only [lookup_cons_ite, ih]
        by_cases hother : other = key
        · have hne : other ≠ name := fun h => hkey (h.symm.trans hother)
          rw [if_pos hother, if_neg hne, if_pos hother]
        · rw [if_neg hother, if_neg hother]

lemma lookup_map (f : String → β → γ) (name : String) (entries : List (String × β)) :
    (entries.map fun e => (e.1, f e.1 e.2)).lookup name = (entries.lookup name).map (f name) := by
  induction entries with
  | nil => rfl
  | cons head rest ih =>
    obtain ⟨key, old⟩ := head
    simp only [List.map_cons, lookup_cons_ite, ih]
    split
    · next hkey => rw [hkey, Option.map_some]
    · rfl

/-- In an increasing list an entry is what its name leads to. -/
lemma mem_iff_lookup_eq {entries : List (String × β)} (h : Increasing entries) {name : String}
    {value : β} : (name, value) ∈ entries ↔ entries.lookup name = some value := by
  induction entries with
  | nil => simp
  | cons head rest ih =>
    obtain ⟨key, old⟩ := head
    obtain ⟨hall, hrest⟩ := List.pairwise_cons.mp h
    rw [List.mem_cons, ih hrest, lookup_cons_ite]
    by_cases hkey : name = key
    · subst hkey
      have hne : rest.lookup name ≠ some value := by
        intro hmem
        -- the names that follow are greater
        have hlt := hall _ ((ih hrest).mpr hmem)
        exact String.lt_irrefl name hlt
      simp [hne, eq_comm]
    · simp [hkey]

/-- A name that is greater than all others is put at the end. -/
lemma insertEntry_of_lt {name : String} {entries : List (String × β)}
    (h : ∀ e ∈ entries, e.1 < name) (value : β) :
    insertEntry name value entries = entries ++ [(name, value)] := by
  induction entries with
  | nil => rfl
  | cons head rest ih =>
    obtain ⟨hhead, hrest⟩ := List.forall_mem_cons.mp h
    obtain ⟨key, old⟩ := head
    have hlt : ¬ name < key := String.lt_asymm hhead
    have hne : name ≠ key := by
      rintro rfl
      exact String.lt_irrefl name hhead
    rw [insertEntry, if_neg hlt, if_neg hne, ih hrest, List.cons_append]

/-- A new name gets its place between the smaller and the greater ones. -/
lemma insertEntry_of_lookup_eq_none {name : String} {entries : List (String × β)}
    (h : entries.lookup name = none) (hincreasing : Increasing entries) (value : β) :
    ∃ front back, entries = front ++ back ∧
      insertEntry name value entries = front ++ (name, value) :: back ∧
      (∀ e ∈ front, e.1 < name) ∧ ∀ e ∈ back, name < e.1 := by
  induction entries with
  | nil => exact ⟨[], [], rfl, rfl, List.forall_mem_nil _, List.forall_mem_nil _⟩
  | cons head rest ih =>
    obtain ⟨key, old⟩ := head
    obtain ⟨hall, hrest⟩ := List.pairwise_cons.mp hincreasing
    rw [lookup_cons_ite] at h
    split at h
    · cases h
    · next hne =>
      by_cases hlt : name < key
      · refine ⟨[], (key, old) :: rest, rfl, ?_, List.forall_mem_nil _, ?_⟩
        · rw [insertEntry, if_pos hlt, List.nil_append]
        · exact List.forall_mem_cons.mpr ⟨hlt, fun e he => String.lt_trans hlt (hall e he)⟩
      · have hgt : key < name := by
          refine Decidable.byContradiction fun hge => hne ?_
          exact String.le_antisymm (String.not_lt.mp hge) (String.not_lt.mp hlt)
        obtain ⟨front, back, rfl, hinsert, hfront, hback⟩ := ih h hrest
        refine ⟨(key, old) :: front, back, rfl, ?_, List.forall_mem_cons.mpr ⟨hgt, hfront⟩, hback⟩
        rw [insertEntry, if_neg hlt, if_neg hne, hinsert, List.cons_append]

namespace NameMap

@[simp] lemma get?_empty (name : String) : (empty : NameMap β).get? name = none := rfl

lemma get?_insert (m : NameMap β) (name other : String) (value : β) :
    (m.insert name value).get? other = if other = name then some value else m.get? other :=
  lookup_insertEntry name other value m.entries

@[simp] lemma get?_insert_self (m : NameMap β) (name : String) (value : β) :
    (m.insert name value).get? name = some value := by
  rw [get?_insert, if_pos rfl]

lemma get?_insert_of_ne (m : NameMap β) {name other : String} (value : β) (h : other ≠ name) :
    (m.insert name value).get? other = m.get? other := by
  rw [get?_insert, if_neg h]

@[simp] lemma get?_mapEntries (m : NameMap β) (f : String → β → γ) (name : String) :
    (m.mapEntries f).get? name = (m.get? name).map (f name) :=
  lookup_map f name m.entries

lemma get?_modify_self (m : NameMap β) (name : String) (f : β → β) :
    (m.modify name f).get? name = (m.get? name).map f := by
  simp [modify]

lemma get?_modify_of_ne (m : NameMap β) {name other : String} (f : β → β) (h : other ≠ name) :
    (m.modify name f).get? other = m.get? other := by
  simp [modify, h]

lemma mem_entries {m : NameMap β} {name : String} {value : β} :
    (name, value) ∈ m.entries ↔ m.get? name = some value :=
  mem_iff_lookup_eq m.increasing

lemma mem_values {m : NameMap β} {value : β} :
    value ∈ m.values ↔ ∃ name, m.get? name = some value := by
  simp only [values, List.mem_map, Prod.exists, exists_eq_right, mem_entries]

lemma mem_names {m : NameMap β} {name : String} :
    name ∈ m.names ↔ ∃ value, m.get? name = some value := by
  simp only [names, List.mem_map, Prod.exists, exists_and_right, exists_eq_right, mem_entries]

lemma pairwise_names (m : NameMap β) : m.names.Pairwise (· < ·) :=
  List.pairwise_map.mpr m.increasing

lemma nodup_names (m : NameMap β) : m.names.Nodup :=
  List.Pairwise.map _ (fun _ _ hlt heq => String.lt_irrefl _ (heq ▸ hlt)) m.increasing

/-- If no name is listed twice, the map of a list holds what is listed. -/
lemma get?_ofList {entries : List (String × β)} (h : (entries.map Prod.fst).Nodup) {name : String}
    {value : β} : (ofList entries).get? name = some value ↔ (name, value) ∈ entries := by
  have hfold (m : NameMap β) : (entries.foldl (fun m e => m.insert e.1 e.2) m).get? name =
      some value ↔ (name, value) ∈ entries ∨
        name ∉ entries.map Prod.fst ∧ m.get? name = some value := by
    induction entries generalizing m with
    | nil => simp
    | cons first rest ih =>
      obtain ⟨hnew, hrest⟩ := List.nodup_cons.mp h
      obtain ⟨key, x⟩ := first
      rw [List.foldl_cons, ih hrest, get?_insert]
      by_cases heq : name = key
      · subst heq
        have hmem : (name, value) ∉ rest := fun hmem => hnew (List.mem_map.mpr ⟨_, hmem, rfl⟩)
        simp [hmem, hnew, eq_comm]
      · simp [heq]
  rw [ofList, hfold empty]
  simp

lemma eq_of_entries : ∀ {m n : NameMap β}, m.entries = n.entries → m = n
  | ⟨_, _⟩, ⟨_, _⟩, rfl => rfl

/-- A map is the map of its entries. -/
@[simp] lemma ofList_entries (m : NameMap β) : ofList m.entries = m := by
  have hfold (more : List (String × β)) (front : NameMap β)
      (h : Increasing (front.entries ++ more)) :
      (more.foldl (fun m e => m.insert e.1 e.2) front).entries = front.entries ++ more := by
    induction more generalizing front with
    | nil => simp
    | cons e more ih =>
      have hlt : ∀ before ∈ front.entries, before.1 < e.1 := fun before hbefore =>
        (List.pairwise_append.mp h).2.2 before hbefore e List.mem_cons_self
      have hinsert : (front.insert e.1 e.2).entries = front.entries ++ [e] :=
        insertEntry_of_lt hlt e.2
      rw [List.foldl_cons, ih (front.insert e.1 e.2) (by rw [hinsert]; simpa using h), hinsert]
      simp
  have hentries : (ofList m.entries).entries = m.entries := hfold m.entries empty m.increasing
  exact eq_of_entries hentries

/-- The names of values that know their names. -/
lemma map_values {m : NameMap β} {f : β → String}
    (h : ∀ name value, m.get? name = some value → f value = name) : m.values.map f = m.names := by
  rw [values, names, List.map_map]
  exact List.map_congr_left fun e he => h e.1 e.2 (mem_entries.mp he)

lemma length_names (m : NameMap β) : m.names.length = m.size := List.length_map _

/-- The entry of a name stands between entries of other names. -/
lemma exists_split {m : NameMap β} {name : String} {value : β} (h : m.get? name = some value) :
    ∃ front back, m.entries = front ++ (name, value) :: back ∧
      (∀ e ∈ front, e.1 ≠ name) ∧ ∀ e ∈ back, e.1 ≠ name := by
  obtain ⟨front, back, hentries⟩ := List.mem_iff_append.mp (mem_entries.mpr h)
  have hincreasing := m.increasing
  rw [Increasing, hentries, List.pairwise_append, List.pairwise_cons] at hincreasing
  obtain ⟨-, ⟨hback, -⟩, hfront⟩ := hincreasing
  refine ⟨front, back, hentries, fun e he heq => ?_, fun e he heq => ?_⟩
  · have hlt : e.1 < name := hfront e he (name, value) List.mem_cons_self
    exact String.lt_irrefl _ (heq ▸ hlt)
  · have hlt : name < e.1 := hback e he
    exact String.lt_irrefl _ (heq ▸ hlt)

/-- Among the entries of a map one has the name. -/
lemma filter_entries {m : NameMap β} {name : String} {value : β} (h : m.get? name = some value) :
    m.entries.filter (fun e => e.1 = name) = [(name, value)] := by
  obtain ⟨front, back, hentries, hfront, hback⟩ := exists_split h
  rw [hentries, List.filter_append, List.filter_cons_of_pos (by simp),
    List.filter_eq_nil_iff.mpr fun e he => by simp [hfront e he],
    List.filter_eq_nil_iff.mpr fun e he => by simp [hback e he], List.nil_append]

/-! ### Insertions -/

/-- Maps that look up alike are equal. -/
lemma ext_get? {m n : NameMap β} (h : ∀ name, m.get? name = n.get? name) : m = n := by
  have hnodup (m : NameMap β) : m.entries.Nodup :=
    List.Pairwise.of_map Prod.fst (fun _ _ hne heq => hne (congrArg Prod.fst heq)) m.nodup_names
  have hperm : m.entries.Perm n.entries :=
    (List.perm_ext_iff_of_nodup (hnodup m) (hnodup n)).mpr fun ⟨name, value⟩ => by
      rw [mem_entries, mem_entries, h]
  refine eq_of_entries (hperm.eq_of_pairwise (fun a b _ _ hab hba => ?_) m.increasing n.increasing)
  exact absurd hba (String.lt_asymm hab)

lemma insert_comm (m : NameMap β) {name other : String} (h : name ≠ other) (value value' : β) :
    (m.insert name value).insert other value' = (m.insert other value').insert name value := by
  refine ext_get? fun key => ?_
  simp only [get?_insert]
  by_cases hname : key = name
  · rw [if_pos hname, if_pos hname, if_neg (hname ▸ h)]
  · rw [if_neg hname, if_neg hname]

/-- A name that has the value already keeps it. -/
lemma insert_of_get? {m : NameMap β} {name : String} {value : β} (h : m.get? name = some value) :
    m.insert name value = m := by
  refine ext_get? fun key => ?_
  rw [get?_insert]
  split
  · next heq => rw [heq, h]
  · rfl

lemma modify_insert_of_ne (m : NameMap β) {name other : String} (h : other ≠ name) (value : β)
    (f : β → β) : (m.insert other value).modify name f = (m.modify name f).insert other value := by
  refine ext_get? fun key => ?_
  by_cases hname : key = name
  · subst hname
    rw [get?_modify_self, get?_insert_of_ne _ _ (Ne.symm h), get?_insert_of_ne _ _ (Ne.symm h),
      get?_modify_self]
  · rw [get?_modify_of_ne _ _ hname, get?_insert, get?_insert, get?_modify_of_ne _ _ hname]

/-- A new entry stands between those of smaller and of greater names. -/
lemma exists_split_insert {m : NameMap β} {name : String} (h : m.get? name = none) (value : β) :
    ∃ front back, m.entries = front ++ back ∧
      (m.insert name value).entries = front ++ (name, value) :: back ∧
      (∀ e ∈ front, e.1 < name) ∧ ∀ e ∈ back, name < e.1 :=
  insertEntry_of_lookup_eq_none h m.increasing value

/-! ### Indices -/

section Indices

variable {α : Type} {wrap : List α → β} {index : NameMap β} {filed : String → List α}

/-- The index holds for each key what is filed under it; a key with nothing has no entry. -/
def Indexes (wrap : List α → β) (index : NameMap β) (filed : String → List α) : Prop :=
  ∀ key, index.get? key = if filed key = [] then none else some (wrap (filed key))

lemma indexes_empty (wrap : List α → β) : Indexes wrap empty fun _ => [] := fun _ => rfl

/-- One more item is filed under a key. -/
lemma Indexes.insert (h : Indexes wrap index filed) (key : String) (item : α) :
    Indexes wrap (index.insert key (wrap (filed key ++ [item])))
      fun other => filed other ++ List.replicate ([key].count other) item := by
  intro other
  rw [get?_insert]
  by_cases heq : other = key
  · subst heq
    simp
  · simp [heq, h other, Ne.symm heq]

/-- Steps that file something each: in the end all of it is filed, in the order of the steps. -/
lemma Indexes.foldl {file : NameMap β → γ → NameMap β} {items : γ → String → List α}
    (hfile : ∀ {index filed}, Indexes wrap index filed → ∀ step,
      Indexes wrap (file index step) fun key => filed key ++ items step key)
    (h : Indexes wrap index filed) (steps : List γ) :
    Indexes wrap (steps.foldl file index)
      fun key => filed key ++ steps.flatMap fun step => items step key := by
  induction steps generalizing index filed with
  | nil => simpa using h
  | cons first rest ih => simpa using ih (hfile h first)

/-- An item that is filed under several keys is under each of them as often as it is listed. -/
lemma Indexes.foldl_keys {file : NameMap β → String → NameMap β} {item : α}
    (hfile : ∀ {index filed}, Indexes wrap index filed → ∀ key,
      Indexes wrap (file index key)
        fun other => filed other ++ List.replicate ([key].count other) item)
    (h : Indexes wrap index filed) (keys : List String) :
    Indexes wrap (keys.foldl file index)
      fun other => filed other ++ List.replicate (keys.count other) item := by
  have hcount (other : String) :
      (keys.flatMap fun key => List.replicate ([key].count other) item) =
        List.replicate (keys.count other) item := by
    induction keys with
    | nil => rfl
    | cons first rest ih =>
      rw [List.flatMap_cons, ih, List.replicate_append_replicate, ← List.count_append,
        List.singleton_append]
  simpa only [hcount] using h.foldl hfile keys

end Indices

end NameMap

namespace NameSet

variable {s t : NameSet} {name other : String} {names : List String}

lemma mem_add : other ∈ (s.add name).names ↔ other = name ∨ other ∈ s.names := by
  simp only [NameMap.mem_names, add, NameMap.get?_insert]
  by_cases heq : other = name
  · simp [heq]
  · simp [heq]

lemma mem_addAll : other ∈ (s.addAll names).names ↔ other ∈ names ∨ other ∈ s.names := by
  induction names generalizing s with
  | nil => simp [addAll]
  | cons first rest ih =>
    have hrest : other ∈ ((s.add first).addAll rest).names ↔
        other ∈ first :: rest ∨ other ∈ s.names := by
      rw [ih, mem_add, List.mem_cons, or_left_comm, or_assoc]
    exact hrest

lemma mem_union : other ∈ (s.union t).names ↔ other ∈ s.names ∨ other ∈ t.names :=
  mem_addAll.trans or_comm

end NameSet

end ReleaseFlags
