import ReleaseFlags.FileTree.Write
import ReleaseFlags.Proofs.NameMap
import ReleaseFlags.Proofs.Path

/-!
# Ways through a tree

Following a path is a way from a location to another one, which enters directories and jumps at
links (`Leads`).  A path is resolved exactly if there is a way with few enough links
(`follow_eq_ok_iff`).  Ways are put together from parts and taken apart (`Leads.append`,
`Leads.exists_of_append`), and components that stand for the directory where they are can be put in
anywhere on a way to a directory (`Leads.of_named`).
-/

namespace ReleaseFlags

namespace FileTree

variable {tree after other : FileTree} {here next there start location name : String}
  {cs front rest : List String} {node : FileNode} {n m links : Nat} {changed more : String → Prop}

/-! ### Ways -/

/-- The component stands for the directory where it is. -/
abbrev IsBlank (component : String) : Prop := component = "" ∨ component = "."

/-- The component can be the name of something in a directory. -/
structure IsEntryName (component : String) : Prop where
  not_blank : ¬ IsBlank component
  ne_above : component ≠ ".."
  short : isLongName component = false

/-- A component leads from a directory to a location, without a link. -/
inductive Passes (tree : FileTree) (here : String) : String → String → Prop
  | blank {name : String} (h : IsBlank name) : Passes tree here name here
  | up : Passes tree here ".." (above here)
  | enter {name : String} {node : FileNode} (h : IsEntryName name)
      (hnode : tree.node? (childOf here name) = some node) (hlink : ∀ target, node ≠ .link target) :
      Passes tree here name (childOf here name)

/-- Where a component leads to depends on the component only. -/
lemma Passes.next_eq {next' : String} (h : tree.Passes here name next)
    (h' : other.Passes here name next') : next = next' := by
  cases h with
  | blank hblank =>
    cases h' with
    | blank => rfl
    | up => exact absurd hblank (by decide)
    | enter hname => exact absurd hblank hname.not_blank
  | up =>
    cases h' with
    | blank hblank => exact absurd hblank (by decide)
    | up => rfl
    | enter hname => exact absurd rfl hname.ne_above
  | enter hname =>
    cases h' with
    | blank hblank => exact absurd hblank hname.not_blank
    | up => exact absurd rfl hname.ne_above
    | enter => rfl

/-- The name of an entry leads to the entry, which is no link. -/
lemma Passes.exists_node (h : tree.Passes here name next) (hname : IsEntryName name) :
    next = childOf here name ∧
      ∃ node, tree.node? next = some node ∧ ∀ target, node ≠ .link target := by
  cases h with
  | blank hblank => exact absurd hblank hname.not_blank
  | up => exact absurd rfl hname.ne_above
  | enter _ hnode hlink => exact ⟨rfl, _, hnode, hlink⟩

/-- Components lead from a location to another one, through so many links. -/
inductive Leads (tree : FileTree) : Nat → String → List String → String → Prop
  | done (here : String) : Leads tree 0 here [] here
  | pass {n : Nat} {here name next there : String} {rest : List String}
      (hhere : tree.node? here = some .directory) (hnext : tree.Passes here name next)
      (hrest : Leads tree n next rest there) : Leads tree n here (name :: rest) there
  | jump {n : Nat} {here name target there : String} {rest : List String}
      (hhere : tree.node? here = some .directory) (hname : IsEntryName name)
      (hnode : tree.node? (childOf here name) = some (.link target))
      (hrest : Leads tree n (startOf target here) (components target ++ rest) there) :
      Leads tree (n + 1) here (name :: rest) there

section Descend

variable {gap : String → List String → Except DeadEnd String}
  {jump : String → String → List String → Except DeadEnd String}

lemma descend_of_passes (hhere : tree.node? here = some .directory)
    (h : tree.Passes here name next) :
    tree.descend gap jump here (name :: rest) = tree.descend gap jump next rest := by
  rw [descend, if_neg (not_not_intro hhere)]
  cases h with
  | blank hblank => exact if_pos hblank
  | up => rfl
  | enter hname hnode hlink =>
    rw [if_neg hname.not_blank, if_neg hname.ne_above, hname.short, if_neg Bool.false_ne_true,
      hnode]
    split
    · next hnone => cases hnone
    · next target hsome => exact absurd (Option.some.inj hsome) (hlink target)
    · rfl

lemma descend_of_link {target : String} (hhere : tree.node? here = some .directory)
    (hname : IsEntryName name) (hnode : tree.node? (childOf here name) = some (.link target)) :
    tree.descend gap jump here (name :: rest) = jump here target rest := by
  rw [descend, if_neg (not_not_intro hhere), if_neg hname.not_blank, if_neg hname.ne_above,
    hname.short, if_neg Bool.false_ne_true, hnode]

/-- What is followed without a gap is a way, if each jump goes on with a way that has links left. -/
lemma exists_leads_of_descend (hjump : ∀ here target rest, jump here target rest = .ok there →
      ∃ n < links, tree.Leads n (startOf target here) (components target ++ rest) there)
    (h : tree.descend (fun _ _ => .error .missing) jump here cs = .ok there) :
    ∃ n ≤ links, tree.Leads n here cs there := by
  induction cs generalizing here with
  | nil =>
    cases h
    exact ⟨0, Nat.zero_le links, .done there⟩
  | cons name rest ih =>
    have hpass {next : String} (hhere : tree.node? here = some .directory)
        (hnext : tree.Passes here name next) :
        ∃ n ≤ links, tree.Leads n here (name :: rest) there := by
      rw [descend_of_passes hhere hnext] at h
      obtain ⟨n, hn, hrest⟩ := ih h
      exact ⟨n, hn, .pass hhere hnext hrest⟩
    by_cases hhere : tree.node? here = some .directory
    · by_cases hblank : IsBlank name
      · exact hpass hhere (.blank hblank)
      by_cases habove : name = ".."
      · exact hpass hhere (habove ▸ Passes.up)
      have h' := h
      rw [descend, if_neg (not_not_intro hhere), if_neg hblank, if_neg habove] at h'
      split at h'
      · cases h'
      next hshort =>
      have hname : IsEntryName name := ⟨hblank, habove, Bool.eq_false_iff.mpr hshort⟩
      split at h'
      · cases h'
      · next target hnode =>
        obtain ⟨n, hn, hrest⟩ := hjump here target rest h'
        exact ⟨n + 1, hn, .jump hhere hname hnode hrest⟩
      · next node hlink hnode =>
        exact hpass hhere (.enter hname hnode hlink)
    · rw [descend, if_pos hhere] at h
      cases h

end Descend

lemma followOr_of_passes {gap : String → List String → Except DeadEnd String}
    (hhere : tree.node? here = some .directory) (h : tree.Passes here name next) :
    tree.followOr gap links here (name :: rest) = tree.followOr gap links next rest := by
  cases links <;> exact descend_of_passes hhere h

lemma followOr_eq_ok_iff : tree.followOr (fun _ _ => .error .missing) links here cs = .ok there ↔
    ∃ n ≤ links, tree.Leads n here cs there := by
  constructor
  · intro h
    induction links generalizing here cs with
    | zero => exact exists_leads_of_descend (fun _ _ _ hjump => by cases hjump) h
    | succ links ih =>
      refine exists_leads_of_descend (fun here target rest hjump => ?_) h
      obtain ⟨n, hn, hrest⟩ := ih hjump
      exact ⟨n, Nat.lt_succ_of_le hn, hrest⟩
  · rintro ⟨n, hn, h⟩
    induction h generalizing links with
    | done here => cases links <;> rfl
    | pass hhere hnext hrest ih => rw [followOr_of_passes hhere hnext, ih hn]
    | jump hhere hname hnode hrest ih =>
      cases links with
      | zero => cases hn
      | succ links =>
        rw [followOr, descend_of_link hhere hname hnode]
        exact ih (Nat.le_of_succ_le_succ hn)

lemma follow_eq_ok_iff :
    tree.follow start cs = .ok there ↔ ∃ n ≤ linkLimit, tree.Leads n start cs there :=
  followOr_eq_ok_iff

lemma resolve_eq_ok_iff {path : String} : tree.resolve path = .ok location ↔
    unusable? path = none ∧ ∃ n ≤ linkLimit,
      tree.Leads n (startOf path tree.workingDirectory) (components path) location := by
  rw [resolve, ← follow_eq_ok_iff]
  split
  · next reason hreason => simp [hreason]
  · next hnone => simp [hnone]

/-! ### Ways put together and taken apart -/

lemma Leads.append (h : tree.Leads n start front here) (hrest : tree.Leads m here rest there) :
    tree.Leads (n + m) start (front ++ rest) there := by
  induction h with
  | done _ => rwa [Nat.zero_add]
  | pass hhere hnext _ ih => exact .pass hhere hnext (ih hrest)
  | jump hhere hname hnode _ ih =>
    have hjoined := ih hrest
    rw [List.append_assoc] at hjoined
    rw [Nat.add_right_comm]
    exact .jump hhere hname hnode hjoined

/-- One more component that is no link. -/
lemma Leads.concat (h : tree.Leads n start cs here) (hhere : tree.node? here = some .directory)
    (hnext : tree.Passes here name next) : tree.Leads n start (cs ++ [name]) next :=
  h.append (.pass hhere hnext (.done next))

lemma Leads.exists_of_append (h : tree.Leads n start (front ++ rest) there) :
    ∃ k m here, n = k + m ∧ tree.Leads k start front here ∧ tree.Leads m here rest there := by
  generalize hcs : front ++ rest = cs at h
  induction h generalizing front with
  | done here =>
    obtain ⟨rfl, rfl⟩ := List.append_eq_nil_iff.mp hcs
    exact ⟨0, 0, here, rfl, .done here, .done here⟩
  | @pass n here name next there after hhere hnext hrest ih =>
    cases front with
    | nil =>
      obtain rfl : rest = name :: after := hcs
      exact ⟨0, n, here, (Nat.zero_add n).symm, .done here, .pass hhere hnext hrest⟩
    | cons first front =>
      obtain ⟨rfl, rfl⟩ := List.cons.inj hcs
      obtain ⟨k, m, between, hn, hfront, hback⟩ := ih rfl
      exact ⟨k, m, between, hn, .pass hhere hnext hfront, hback⟩
  | @jump n here name target there after hhere hname hnode hrest ih =>
    cases front with
    | nil =>
      obtain rfl : rest = name :: after := hcs
      exact ⟨0, n + 1, here, (Nat.zero_add _).symm, .done here, .jump hhere hname hnode hrest⟩
    | cons first front =>
      obtain ⟨rfl, rfl⟩ := List.cons.inj hcs
      obtain ⟨k, m, between, rfl, hfront, hback⟩ := ih (List.append_assoc ..)
      exact ⟨k + 1, m, between, Nat.add_right_comm k m 1, .jump hhere hname hnode hfront, hback⟩

/-- On a way to a directory every location is a directory, so blank components can be put in. -/
lemma Leads.insert_blank {component : String} (h : tree.Leads n start (front ++ rest) there)
    (hthere : tree.node? there = some .directory) (hblank : IsBlank component) :
    tree.Leads n start (front ++ component :: rest) there := by
  generalize hcs : front ++ rest = cs at h
  induction h generalizing front with
  | done here =>
    obtain ⟨rfl, rfl⟩ := List.append_eq_nil_iff.mp hcs
    exact .pass hthere (.blank hblank) (.done here)
  | @pass n here name next there after hhere hnext hrest ih =>
    cases front with
    | nil =>
      obtain rfl : rest = name :: after := hcs
      exact .pass hhere (.blank hblank) (.pass hhere hnext hrest)
    | cons first front =>
      obtain ⟨rfl, rfl⟩ := List.cons.inj hcs
      exact .pass hhere hnext (ih hthere rfl)
  | @jump n here name target there after hhere hname hnode hrest ih =>
    cases front with
    | nil =>
      obtain rfl : rest = name :: after := hcs
      exact .pass hhere (.blank hblank) (.jump hhere hname hnode hrest)
    | cons first front =>
      obtain ⟨rfl, rfl⟩ := List.cons.inj hcs
      have hjoined := ih hthere (List.append_assoc ..)
      rw [List.append_assoc] at hjoined
      exact .jump hhere hname hnode hjoined

/-- The components that count. -/
def named (cs : List String) : List String := cs.filter fun component => ¬ IsBlank component

lemma named_cons_of_blank (h : IsBlank name) (rest : List String) :
    named (name :: rest) = named rest :=
  List.filter_cons_of_neg fun hkept => of_decide_eq_true hkept h

lemma named_cons (h : ¬ IsBlank name) (rest : List String) :
    named (name :: rest) = name :: named rest :=
  List.filter_cons_of_pos (decide_eq_true h)

lemma named_append (front rest : List String) : named (front ++ rest) = named front ++ named rest :=
  List.filter_append ..

lemma Leads.of_append_named (h : tree.Leads n start (front ++ named rest) there)
    (hthere : tree.node? there = some .directory) : tree.Leads n start (front ++ rest) there := by
  induction rest generalizing front with
  | nil => exact h
  | cons component rest ih =>
    by_cases hblank : IsBlank component
    · rw [named_cons_of_blank hblank] at h
      exact (ih h).insert_blank hthere hblank
    · rw [named_cons hblank, List.append_cons] at h
      rw [List.append_cons]
      exact ih h

lemma Leads.of_named (h : tree.Leads n start (named cs) there)
    (hthere : tree.node? there = some .directory) : tree.Leads n start cs there := by
  have hnamed : tree.Leads n start ([] ++ named cs) there := h
  exact hnamed.of_append_named hthere

end FileTree

end ReleaseFlags
