import ReleaseFlags.Proofs.FileTree.Ways

/-!
# Trees that grow

Everything in a tree lies in a directory (`Closed`), and writing files keeps it so.  A tree grows if
nothing in it is taken away, but for what a file is put in the place of, at known locations
(`Grows`).  While no link is replaced, every path that leads somewhere still leads there
(`Grows.resolve`).  Otherwise a path may lead nowhere, or to the file in the place of a link on its
way, but nowhere else (`Grows.eq_or_file`).
-/

namespace ReleaseFlags

/-- What is found is a link. -/
def FileNode.isLink : FileNode → Bool
  | .link _ => true
  | _ => false

namespace FileTree

variable {tree between after : FileTree} {here next there start location name other : String}
  {cs : List String} {node : FileNode} {n m : Nat} {changed more : String → Prop}

/-! ### Locations -/

lemma childOf_ne_empty (here name : String) : childOf here name ≠ "" := by
  simp [childOf]

lemma above_childOf (h : '/' ∉ name.toList) (here : String) : above (childOf here name) = here := by
  have hlist : (childOf here name).toList = here.toList ++ '/' :: name.toList := by simp [childOf]
  rw [above, hlist, Path.splitAtLast_append h]
  exact String.ofList_toList

/-- A location tells what its directory is, and which name it has there. -/
lemma eq_of_childOf_eq {directory : String} (hname : '/' ∉ name.toList)
    (hother : '/' ∉ other.toList) (h : childOf here name = childOf directory other) :
    here = directory ∧ name = other := by
  have hhere : here = directory := by
    rw [← above_childOf hname here, h, above_childOf hother]
  subst hhere
  simp only [childOf, ← String.toList_inj, String.toList_append, List.append_cancel_left_eq] at h
  exact ⟨rfl, String.toList_inj.mp h⟩

lemma node?_place (h : location ≠ "") (tree : FileTree) (node : FileNode) (other : String) :
    (tree.place location node).node? other =
      if other = location then some node else tree.node? other := by
  unfold node? place
  by_cases hother : other = ""
  · subst hother
    rw [if_pos rfl, if_pos rfl, if_neg (Ne.symm h)]
  · rw [if_neg hother, if_neg hother, NameMap.get?_insert]

/-- Everything lies in a directory, and the working directory is one. -/
structure Closed (tree : FileTree) : Prop where
  workingDirectory : tree.node? tree.workingDirectory = some .directory
  node?_above : ∀ location node, tree.node? location = some node →
    tree.node? (above location) = some .directory

lemma node?_iff : tree.node? location = some node ↔ location = "" ∧ node = .directory ∨
    location ≠ "" ∧ (location, node) ∈ tree.nodes.entries := by
  rw [node?, NameMap.mem_entries]
  split
  · next hempty => simp [hempty, eq_comm]
  · next hne => simp [hne]

/-- Whether a tree is closed is seen from its entries. -/
instance (tree : FileTree) : Decidable tree.Closed :=
  decidable_of_iff (tree.node? tree.workingDirectory = some .directory ∧
      ∀ e ∈ tree.nodes.entries, tree.node? (above e.1) = some .directory) <| by
    constructor
    · rintro ⟨hworking, hentries⟩
      refine ⟨hworking, fun location node hnode => ?_⟩
      rcases node?_iff.mp hnode with ⟨rfl, -⟩ | ⟨-, hentry⟩
      · rfl
      · exact hentries _ hentry
    · intro h
      refine ⟨h.workingDirectory, fun e he => ?_⟩
      by_cases hempty : e.1 = ""
      · rw [hempty]
        rfl
      · exact h.node?_above e.1 e.2 (node?_iff.mpr (.inr ⟨hempty, he⟩))

lemma Closed.startOf (h : tree.Closed) (path : String) :
    tree.node? (startOf path tree.workingDirectory) = some .directory := by
  unfold FileTree.startOf
  split
  · rfl
  · exact h.workingDirectory

/-- Only the name of an entry leads to a file. -/
lemma Closed.isEntryName {content : Option String} (h : tree.Closed)
    (hhere : tree.node? here = some .directory) (hnext : tree.Passes here name next)
    (hnode : tree.node? next = some (.file content)) :
    IsEntryName name ∧ next = childOf here name := by
  cases hnext with
  | blank => cases hhere.symm.trans hnode
  | up => cases (h.node?_above here _ hhere).symm.trans hnode
  | enter hname => exact ⟨hname, rfl⟩

/-- A new name in a directory is not that of one. -/
lemma Closed.place (h : tree.Closed) (hname : '/' ∉ name.toList)
    (hhere : tree.node? here = some .directory)
    (hnew : node = .directory ∨ tree.node? (childOf here name) ≠ some .directory) :
    (tree.place (childOf here name) node).Closed := by
  have hkept {location : String} (hlocation : tree.node? location = some .directory) :
      (tree.place (childOf here name) node).node? location = some .directory := by
    rw [node?_place (childOf_ne_empty here name)]
    split
    · next heq =>
      subst heq
      rw [hnew.resolve_right (not_not_intro hlocation)]
    · exact hlocation
  refine ⟨hkept h.workingDirectory, fun location found hfound => hkept ?_⟩
  rw [node?_place (childOf_ne_empty here name)] at hfound
  split at hfound
  · next heq =>
    rw [heq, above_childOf hname]
    exact hhere
  · exact h.node?_above location found hfound

/-! ### Growth -/

/-- The links of the tree are links of the other one as well. -/
def LinksIn (tree other : FileTree) : Prop :=
  ∀ location target, tree.node? location = some (.link target) →
    other.node? location = some (.link target)

lemma LinksIn.refl (tree : FileTree) : tree.LinksIn tree := fun _ _ => id

lemma LinksIn.trans (h : tree.LinksIn between) (h' : between.LinksIn after) : tree.LinksIn after :=
  fun location target hlink => h' location target (h location target hlink)

/-- What is in the tree stays there, and only directories are new, but for files at some locations.
There may have been files or links before. -/
structure Grows (changed : String → Prop) (tree after : FileTree) : Prop where
  workingDirectory_eq : after.workingDirectory = tree.workingDirectory
  kept : ∀ location node, tree.node? location = some node → after.node? location = some node ∨
    changed location ∧ node ≠ .directory ∧ ∃ content, after.node? location = some (.file content)
  added : ∀ location node, after.node? location = some node → tree.node? location = some node ∨
    node = .directory ∨ changed location ∧ ∃ content, node = .file content

namespace Grows

lemma refl (tree : FileTree) : Grows changed tree tree := ⟨rfl, fun _ _ => .inl, fun _ _ => .inl⟩

lemma mono (h : Grows changed tree after) (himp : ∀ location, changed location → more location) :
    Grows more tree after where
  workingDirectory_eq := h.workingDirectory_eq
  kept location node hnode := (h.kept location node hnode).imp_right (And.imp_left (himp location))
  added location node hnode :=
    (h.added location node hnode).imp_right (Or.imp_right (And.imp_left (himp location)))

lemma trans (h : Grows changed tree between) (h' : Grows changed between after) :
    Grows changed tree after := by
  refine ⟨h'.workingDirectory_eq.trans h.workingDirectory_eq, fun location node hnode => ?_,
    fun location node hnode => ?_⟩
  · rcases h.kept location node hnode with hkept | ⟨hchanged, hne, content, hfile⟩
    · exact h'.kept location node hkept
    · rcases h'.kept location _ hfile with hkept | ⟨-, -, hnewer⟩
      · exact .inr ⟨hchanged, hne, content, hkept⟩
      · exact .inr ⟨hchanged, hne, hnewer⟩
  · rcases h'.added location node hnode with hold | hnew
    · exact h.added location node hold
    · exact .inr hnew

/-- A missing directory is made. -/
lemma place_directory (h : tree.node? location = none) (hlocation : location ≠ "") :
    Grows changed tree (tree.place location .directory) := by
  refine ⟨rfl, fun other found hfound => ?_, fun other found hfound => ?_⟩
  · have hne : other ≠ location := by
      rintro rfl
      cases h.symm.trans hfound
    rw [node?_place hlocation, if_neg hne]
    exact .inl hfound
  · rw [node?_place hlocation] at hfound
    split at hfound
    · exact .inr (.inl (Option.some.inj hfound).symm)
    · exact .inl hfound

/-- A file is put where no directory is. -/
lemma place_file {content : Option String} (h : tree.node? location ≠ some .directory)
    (hlocation : location ≠ "") :
    Grows (· = location) tree (tree.place location (.file content)) := by
  refine ⟨rfl, fun other found hfound => ?_, fun other found hfound => ?_⟩
  · rw [node?_place hlocation]
    split
    · next heq =>
      subst heq
      refine .inr ⟨rfl, ?_, content, rfl⟩
      rintro rfl
      exact h hfound
    · exact .inl hfound
  · rw [node?_place hlocation] at hfound
    split at hfound
    · next heq => exact .inr (.inr ⟨heq, content, (Option.some.inj hfound).symm⟩)
    · exact .inl hfound

/-- No link is new. -/
lemma linksIn (h : Grows changed tree after) : after.LinksIn tree := by
  intro location target hlink
  rcases h.added location _ hlink with hold | hdirectory | ⟨-, _, hfile⟩
  · exact hold
  · cases hdirectory
  · cases hfile

lemma unchanged (h : Grows changed tree after) (hnode : tree.node? location = some node)
    (hchanged : ¬ changed location) : after.node? location = some node :=
  (h.kept location node hnode).resolve_right fun hother => hchanged hother.1

/-- Links stay where no file is put. -/
lemma linksIn_after (h : Grows changed tree after) (hlinks : ∀ location target,
      changed location → tree.node? location ≠ some (.link target)) : tree.LinksIn after := by
  intro location target hlink
  exact h.unchanged hlink fun hchanged => hlinks location target hchanged hlink

lemma directory (h : Grows changed tree after) (hnode : tree.node? location = some .directory) :
    after.node? location = some .directory := by
  rcases h.kept location _ hnode with hkept | ⟨-, hne, -⟩
  · exact hkept
  · exact absurd rfl hne

lemma file (h : Grows changed tree after) {content : Option String}
    (hnode : tree.node? location = some (.file content)) :
    ∃ kept, after.node? location = some (.file kept) := by
  rcases h.kept location _ hnode with hkept | ⟨-, -, hfile⟩
  · exact ⟨content, hkept⟩
  · exact hfile

/-- What is no link does not become one. -/
lemma not_link (h : Grows changed tree after) (hnode : tree.node? location = some node)
    (hlink : ∀ target, node ≠ .link target) (target : String) :
    after.node? location ≠ some (.link target) := by
  intro heq
  exact hlink target (Option.some.inj (hnode.symm.trans (h.linksIn location target heq)))

lemma passes (h : Grows changed tree after) (hnext : tree.Passes here name next) :
    after.Passes here name next := by
  cases hnext with
  | blank hblank => exact .blank hblank
  | up => exact .up
  | enter hname hnode hlink =>
    rcases h.kept _ _ hnode with hkept | ⟨-, -, _, hfile⟩
    · exact .enter hname hkept hlink
    · exact .enter hname hfile fun _ => nofun

/-- Ways stay where no link is replaced. -/
lemma leads (h : Grows changed tree after) (hlinks : tree.LinksIn after)
    (hleads : tree.Leads n start cs there) : after.Leads n start cs there := by
  induction hleads with
  | done here => exact .done here
  | pass hhere hnext _ ih => exact .pass (h.directory hhere) (h.passes hnext) ih
  | jump hhere hname hnode _ ih =>
    exact .jump (h.directory hhere) hname (hlinks _ _ hnode) ih

lemma resolve (h : Grows changed tree after) (hlinks : tree.LinksIn after) {path : String}
    (hpath : tree.resolve path = .ok location) : after.resolve path = .ok location := by
  obtain ⟨husable, n, hn, hleads⟩ := resolve_eq_ok_iff.mp hpath
  rw [resolve_eq_ok_iff, h.workingDirectory_eq]
  exact ⟨husable, n, hn, h.leads hlinks hleads⟩

/-- A way that is still one ends at the same location, or at a file in the place of a link. -/
lemma eq_or_file_of_leads (h : Grows changed tree after) (hleads : tree.Leads n start cs there)
    (hafter : after.Leads m start cs other) :
    other = there ∨ changed other ∧ ∃ content, after.node? other = some (.file content) := by
  induction hleads generalizing m with
  | done here =>
    cases hafter
    exact .inl rfl
  | pass hhere hnext _ ih =>
    cases hafter with
    | pass _ hnext' hrest' =>
      rw [← hnext.next_eq hnext'] at hrest'
      exact ih hrest'
    | jump _ hname hnode' _ =>
      obtain ⟨rfl, node, hnode, hlink⟩ := hnext.exists_node hname
      exact absurd hnode' (h.not_link hnode hlink _)
  | jump hhere hname hnode _ ih =>
    rcases h.kept _ _ hnode with hkept | ⟨hchanged, -, content, hfile⟩
    · cases hafter with
      | pass _ hnext' _ =>
        obtain ⟨rfl, node, hnode', hlink⟩ := hnext'.exists_node hname
        exact absurd (Option.some.inj (hnode'.symm.trans hkept)) (hlink _)
      | jump _ _ hnode' hrest' =>
        cases hkept.symm.trans hnode'
        exact ih hrest'
    · -- the way ends at the file, since nothing is below it
      cases hafter with
      | pass _ hnext' hrest' =>
        obtain ⟨rfl, -⟩ := hnext'.exists_node hname
        cases hrest' with
        | done => exact .inr ⟨hchanged, content, hfile⟩
        | pass hhere' | jump hhere' => cases hfile.symm.trans hhere'
      | jump _ _ hnode' _ => cases hfile.symm.trans hnode'

lemma eq_or_file (h : Grows changed tree after) {path : String}
    (hpath : tree.resolve path = .ok location) (hafter : after.resolve path = .ok other) :
    other = location ∨ changed other ∧ ∃ content, after.node? other = some (.file content) := by
  obtain ⟨-, n, -, hleads⟩ := resolve_eq_ok_iff.mp hpath
  obtain ⟨-, m, -, hafter⟩ := resolve_eq_ok_iff.mp hafter
  rw [h.workingDirectory_eq] at hafter
  exact h.eq_or_file_of_leads hleads hafter

end Grows

/-- Whatever is written later, the components lead to no other directory. -/
def LeadsOnlyTo (tree : FileTree) (start : String) (cs : List String) (here : String) : Prop :=
  ∀ changed later n there, Grows changed tree later → later.Leads n start cs there →
    later.node? there = some .directory → there = here

lemma Leads.leadsOnlyTo (h : tree.Leads n start cs here) : tree.LeadsOnlyTo start cs here := by
  intro changed later m there hgrows hlater hthere
  rcases hgrows.eq_or_file_of_leads h hlater with heq | ⟨-, content, hfile⟩
  · exact heq
  · cases hthere.symm.trans hfile

lemma LeadsOnlyTo.of_grows (h : tree.LeadsOnlyTo start cs here)
    (hgrows : Grows changed tree after) : after.LeadsOnlyTo start cs here := by
  intro more later n there hmore
  refine h (fun location => changed location ∨ more location) later n there ?_
  exact (hgrows.mono fun _ => .inl).trans (hmore.mono fun _ => .inr)

/-! ### Reading -/

lemma find?_of_resolve {path : Path} (h : tree.resolve path.text = .ok location) :
    tree.find? path = tree.node? location := by
  rw [find?, h]

lemma exists_iff {path : Path} : tree.exists path = true ↔
    ∃ location node, tree.resolve path.text = .ok location ∧ tree.node? location = some node := by
  rw [«exists», Option.isSome_iff_exists, find?]
  split
  · next location hlocation => simp [hlocation]
  · next reason hreason => simp [hreason]

lemma read_eq_ok_iff {path : Path} {content : String} : tree.read path = .ok content ↔
    ∃ location, tree.resolve path.text = .ok location ∧
      tree.node? location = some (.file (some content)) := by
  constructor
  · intro h
    rw [read] at h
    split at h
    · next found hfound =>
      obtain rfl := Except.ok.inj h
      rw [find?] at hfound
      split at hfound
      · next location hlocation => exact ⟨location, hlocation, hfound⟩
      · cases hfound
    · cases h
  · rintro ⟨location, hlocation, hnode⟩
    rw [read, find?_of_resolve hlocation, hnode]

lemma Grows.found (h : Grows changed tree after) (hlinks : tree.LinksIn after) {path : Path}
    (hpath : tree.exists path = true) : after.exists path = true := by
  obtain ⟨location, node, hlocation, hnode⟩ := exists_iff.mp hpath
  have hafter := h.resolve hlinks hlocation
  rcases h.kept location node hnode with hkept | ⟨-, -, content, hfile⟩
  · exact exists_iff.mpr ⟨location, node, hafter, hkept⟩
  · exact exists_iff.mpr ⟨location, _, hafter, hfile⟩

/-- What is read is still read where the path leads to no other file. -/
lemma Grows.read_eq (h : Grows changed tree after) {path : Path} {content : String}
    (hread : tree.read path = .ok content) (hafter : after.resolve path.text = .ok other)
    (hchanged : ¬ changed other) : after.read path = .ok content := by
  obtain ⟨location, hlocation, hnode⟩ := read_eq_ok_iff.mp hread
  obtain rfl : other = location :=
    (h.eq_or_file hlocation hafter).resolve_right fun hfile => hchanged hfile.1
  exact read_eq_ok_iff.mpr ⟨other, hafter, h.unchanged hnode hchanged⟩

end FileTree

end ReleaseFlags
