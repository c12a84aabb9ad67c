import Mathlib.Data.List.Nodup
import ReleaseFlags.Proofs.FileTree.Written
import ReleaseFlags.Report.Write

/-!
# Files that are written one after the other

What a report does to the tree is told by the list of its outputs: the files that it puts there, one
after the other (`putAll`).  Files that are written for the entries of a list are the outputs for
these entries (`mapM_onTree`).  If all outputs are found in the end, they are in the tree, and no
other file was changed (`leaves_of_putAll`).  In any case outputs with different names in one
directory are all there, each with its text (`exists_heldIn_of_putAll`).
-/

namespace ReleaseFlags

/-- A text to be put into a file. -/
structure Output where
  path : Path
  content : String
  /-- The file is left alone if it has the content already. -/
  whenChanged : Bool

namespace Output

/-- Puts the text into the file. -/
def put (output : Output) : FileTree.Action Unit := do
  if output.whenChanged then
    let _ ← FileTree.writeIfChanged output.path output.content
  else
    FileTree.write output.path output.content

/-- Puts several texts into their files, one after the other. -/
def putAll (outputs : List Output) : FileTree.Action Unit := outputs.forM put

lemma putAll_append (outputs more : List Output) :
    putAll (outputs ++ more) = (do putAll outputs; putAll more) := List.forM_append

lemma putAll_singleton (output : Output) : putAll [output] = output.put := bind_pure_unit

/-- The output of data to the file at a path, in the format of the path. -/
def ofData (path : Path) (data : Data) : Except FileError Output := do
  return ⟨path, ← renderFile path data, false⟩

/-! ### What the files hold -/

section Run

open FileTree (childOf nameOf frontOf startOf Grows)

variable {output : Output} {outputs rest : List Output} {tree between after : FileTree}
  {directory : Path} {here location : String} {changed : String → Prop}

/-- The text is put into the file, unless it is left alone since it has the text already. -/
lemma puts_or_read_of_put (h : tree.Closed) (hrun : output.put.run tree = (.ok (), after)) :
    (∃ here, tree.Puts output.path output.content here after) ∨
      output.whenChanged = true ∧ tree.read output.path = .ok output.content ∧ after = tree := by
  unfold put at hrun
  split at hrun
  · next hchanged =>
    obtain ⟨_, between, hwritten, hrun⟩ := exists_of_run_bind_eq_ok hrun
    cases hrun
    rcases FileTree.write_or_read_of_writeIfChanged hwritten with hwrite | hread
    · exact .inl (FileTree.puts_of_write h hwrite)
    · exact .inr ⟨hchanged, hread⟩
  · exact .inl (FileTree.puts_of_write h hrun)

/-- Wherever no link has the name of the file, it is as if it was written. -/
lemma puts_of_put (h : tree.Closed)
    (hunlinked : output.whenChanged = true → tree.Unlinked output.path)
    (hrun : output.put.run tree = (.ok (), after)) :
    ∃ here, tree.Puts output.path output.content here after := by
  rcases puts_or_read_of_put h hrun with hputs | ⟨hchanged, hread, rfl⟩
  · exact hputs
  · exact FileTree.puts_of_read h (hunlinked hchanged) hread

lemma grows_of_put (h : tree.Closed) (hrun : output.put.run tree = (.ok (), after)) :
    after.Closed ∧ Grows (fun _ => True) tree after ∧
      (tree.Unlinked output.path → tree.LinksIn after) ∧
      (tree.LinksIn after → after.exists output.path = true) := by
  rcases puts_or_read_of_put h hrun with ⟨here, hputs⟩ | ⟨-, hread, rfl⟩
  · refine ⟨hputs.closed, hputs.grows.mono fun _ _ => trivial, hputs.linksIn, fun hlinks => ?_⟩
    exact FileTree.exists_iff.mpr ⟨_, _, hputs.resolve_eq hlinks, hputs.node?_eq⟩
  · obtain ⟨location, hlocation, hnode⟩ := FileTree.read_eq_ok_iff.mp hread
    exact ⟨h, .refl _, fun _ => .refl _,
      fun _ => FileTree.exists_iff.mpr ⟨location, _, hlocation, hnode⟩⟩

/-- Links are only replaced where an output has their name, and if none was replaced, all outputs
are found. -/
lemma grows_of_putAll (h : tree.Closed) (hrun : (putAll outputs).run tree = (.ok (), after)) :
    after.Closed ∧ Grows (fun _ => True) tree after ∧
      ((∀ output ∈ outputs, tree.Unlinked output.path) → tree.LinksIn after) ∧
      (tree.LinksIn after → ∀ output ∈ outputs, after.exists output.path = true) := by
  induction outputs generalizing tree with
  | nil =>
    cases hrun
    exact ⟨h, .refl _, fun _ => .refl _, nofun⟩
  | cons first rest ih =>
    obtain ⟨_, between, hfirst, hrest⟩ := exists_of_run_bind_eq_ok hrun
    obtain ⟨hclosed, hgrows, hlinks, hfound⟩ := grows_of_put h hfirst
    obtain ⟨hclosed', hgrows', hlinks', hfound'⟩ := ih hclosed hrest
    refine ⟨hclosed', hgrows.trans hgrows', fun hunlinked => ?_, fun hall => ?_⟩
    · obtain ⟨hunlinked, hothers⟩ := List.forall_mem_cons.mp hunlinked
      refine (hlinks hunlinked).trans (hlinks' fun output houtput => ?_)
      exact (hothers output houtput).of_linksIn hgrows.linksIn
    · have hkept : between.LinksIn after := hgrows.linksIn.trans hall
      refine List.forall_mem_cons.mpr ⟨?_, hfound' hkept⟩
      exact hgrows'.found hkept (hfound (hall.trans hgrows'.linksIn))

/-! ### Outputs anywhere -/

/-- The outputs are in the tree, and no other file was changed. -/
structure LeftIn (outputs : List Output) (tree after : FileTree) : Prop where
  grows : Grows
    (fun location => ∃ output ∈ outputs, after.resolve output.path.text = .ok location) tree after
  exists_file : ∀ output ∈ outputs, ∃ location content,
    after.resolve output.path.text = .ok location ∧ after.node? location = some (.file content)
  /-- What no other output was put on top of is read back. -/
  read_eq : ∀ output ∈ outputs, (∀ other ∈ outputs, other ≠ output →
    after.resolve other.path.text ≠ after.resolve output.path.text) →
      after.read output.path = .ok output.content

/-- The file where the path of an output leads later is the one that was written or left alone. -/
lemma file_of_put (h : tree.Closed) (hrun : output.put.run tree = (.ok (), between))
    (hgrows : Grows changed between after)
    (hlocation : after.resolve output.path.text = .ok location) :
    Grows (· = location) tree between ∧
      (∃ content, after.node? location = some (.file content)) ∧
      (¬ changed location → after.read output.path = .ok output.content) := by
  rcases puts_or_read_of_put h hrun with ⟨here, hputs⟩ | ⟨-, hread, rfl⟩
  · obtain rfl := hputs.eq_childOf hgrows hlocation
    obtain ⟨content, hfile⟩ := hgrows.file hputs.node?_eq
    have hfound := FileTree.exists_iff.mpr ⟨_, _, hlocation, hfile⟩
    exact ⟨hputs.grows, ⟨content, hfile⟩, fun hchanged => hputs.read_eq hgrows hchanged hfound⟩
  · refine ⟨.refl _, ?_, hgrows.read_eq hread hlocation⟩
    obtain ⟨old, hold, hnode⟩ := FileTree.read_eq_ok_iff.mp hread
    rcases hgrows.eq_or_file hold hlocation with rfl | ⟨-, hfile⟩
    · exact hgrows.file hnode
    · exact hfile

/-- A run leaves its outputs in the tree, if all of them are found there. -/
lemma leftIn_of_putAll (h : tree.Closed) (hrun : (putAll outputs).run tree = (.ok (), after))
    (hfound : ∀ output ∈ outputs, after.exists output.path = true) :
    LeftIn outputs tree after := by
  induction outputs generalizing tree with
  | nil =>
    cases hrun
    exact ⟨.refl _, nofun, nofun⟩
  | cons first rest ih =>
    obtain ⟨_, between, hfirst, hrest⟩ := exists_of_run_bind_eq_ok hrun
    obtain ⟨hfound, hothers⟩ := List.forall_mem_cons.mp hfound
    have hleft := ih (grows_of_put h hfirst).1 hrest hothers
    obtain ⟨location, -, hlocation, -⟩ := FileTree.exists_iff.mp hfound
    obtain ⟨hgrows, ⟨content, hfile⟩, hread⟩ := file_of_put h hfirst hleft.grows hlocation
    refine ⟨?_, ?_, fun output houtput hother => ?_⟩
    · refine (hgrows.mono ?_).trans (hleft.grows.mono ?_)
      · rintro _ rfl
        exact ⟨first, List.mem_cons_self, hlocation⟩
      · rintro other ⟨output, houtput, hsame⟩
        exact ⟨output, List.mem_cons_of_mem _ houtput, hsame⟩
    · exact List.forall_mem_cons.mpr ⟨⟨location, content, hlocation, hfile⟩, hleft.exists_file⟩
    · by_cases hagain : output ∈ rest
      · refine hleft.read_eq output hagain fun other hmem => ?_
        exact hother other (List.mem_cons_of_mem _ hmem)
      · obtain rfl := (List.mem_cons.mp houtput).resolve_right hagain
        refine hread ?_
        rintro ⟨other, hmem, hsame⟩
        have hne : other ≠ output := fun heq => hagain (heq ▸ hmem)
        exact hother other (List.mem_cons_of_mem _ hmem) hne (hsame.trans hlocation.symm)

/-- A run replaces links only if they have the names of its outputs.  If it replaces none, all its
outputs are found; and if they are found, they are in the tree. -/
structure Leaves (outputs : List Output) (tree after : FileTree) : Prop where
  linksIn : (∀ output ∈ outputs, tree.Unlinked output.path) → tree.LinksIn after
  found : tree.LinksIn after → ∀ output ∈ outputs, after.exists output.path = true
  leftIn : (∀ output ∈ outputs, after.exists output.path = true) → LeftIn outputs tree after

lemma leaves_of_putAll (h : tree.Closed) (hrun : (putAll outputs).run tree = (.ok (), after)) :
    Leaves outputs tree after := by
  obtain ⟨-, -, hlinks, hfound⟩ := grows_of_putAll h hrun
  exact ⟨hlinks, hfound, leftIn_of_putAll h hrun⟩

/-! ### Outputs in one directory -/

/-- The outputs are in the directory at a location, each under its name, and no other file was
changed. -/
structure HeldIn (outputs : List Output) (here : String) (tree after : FileTree) : Prop where
  grows : Grows (fun location => ∃ output ∈ outputs,
    location = childOf here (nameOf output.path)) tree after
  node?_eq : ∀ output ∈ outputs,
    after.node? (childOf here (nameOf output.path)) = some (.file (some output.content))
  /-- What is found at the path of an output is its text. -/
  read_eq : ∀ output ∈ outputs, after.exists output.path = true →
    after.read output.path = .ok output.content

/-- What was put into the directory stays while files with other names are put there. -/
lemma HeldIn.cons (hputs : tree.Puts output.path output.content here between)
    (hheld : HeldIn rest here between after)
    (hname : nameOf output.path ∉ rest.map fun other => nameOf other.path) :
    HeldIn (output :: rest) here tree after := by
  have hkept : ¬ ∃ other ∈ rest,
      childOf here (nameOf output.path) = childOf here (nameOf other.path) := by
    rintro ⟨other, hother, hsame⟩
    have hnames := FileTree.eq_of_childOf_eq (FileTree.slash_notMem_nameOf output.path)
      (FileTree.slash_notMem_nameOf other.path) hsame
    exact hname (hnames.2 ▸ List.mem_map_of_mem hother)
  refine ⟨?_,
    List.forall_mem_cons.mpr ⟨hheld.grows.unchanged hputs.node?_eq hkept, hheld.node?_eq⟩,
    List.forall_mem_cons.mpr ⟨hputs.read_eq hheld.grows hkept, hheld.read_eq⟩⟩
  refine (hputs.grows.mono ?_).trans (hheld.grows.mono ?_)
  · rintro _ rfl
    exact ⟨output, List.mem_cons_self, rfl⟩
  · rintro location ⟨other, hother, hsame⟩
    exact ⟨other, List.mem_cons_of_mem _ hother, hsame⟩

/-- Once the way leads to one directory only, all outputs are put there. -/
lemma heldIn_of_leadsOnlyTo (h : tree.Closed) (hrun : (putAll outputs).run tree = (.ok (), after))
    (hunlinked : ∀ output ∈ outputs, output.whenChanged = true → tree.Unlinked output.path)
    (hnodup : (outputs.map fun output => nameOf output.path).Nodup)
    (honly : ∀ output ∈ outputs, tree.LeadsOnlyTo
      (startOf output.path.text tree.workingDirectory) (frontOf output.path) here) :
    HeldIn outputs here tree after := by
  induction outputs generalizing tree with
  | nil =>
    cases hrun
    exact ⟨.refl _, nofun, nofun⟩
  | cons first rest ih =>
    obtain ⟨_, between, hfirst, hrest⟩ := exists_of_run_bind_eq_ok hrun
    obtain ⟨hunlinked, hothers⟩ := List.forall_mem_cons.mp hunlinked
    obtain ⟨honly, honlys⟩ := List.forall_mem_cons.mp honly
    obtain ⟨hname, hnodup⟩ := List.nodup_cons.mp hnodup
    obtain ⟨there, hputs⟩ := puts_of_put h hunlinked hfirst
    obtain rfl := hputs.eq_of_leadsOnlyTo honly
    refine .cons hputs (ih hputs.closed hrest ?_ hnodup ?_) hname
    · exact fun output houtput hchanged =>
        (hothers output houtput hchanged).of_linksIn hputs.grows.linksIn
    · intro output houtput
      rw [hputs.grows.workingDirectory_eq]
      exact (honlys output houtput).of_grows hputs.grows

/-- Outputs with different names in one directory are all there in the end. -/
lemma exists_heldIn_of_putAll (h : tree.Closed)
    (hrun : (putAll outputs).run tree = (.ok (), after))
    (hunlinked : ∀ output ∈ outputs, output.whenChanged = true → tree.Unlinked output.path)
    (hjoin : ∀ p ∈ outputs.map path, directory.IsNameIn p) (hnodup : (outputs.map path).Nodup) :
    ∃ here, HeldIn outputs here tree after := by
  have hnames : (outputs.map fun output => nameOf output.path).Nodup := by
    have hnames := hnodup.map_on fun first hfirst second hsecond =>
      FileTree.eq_of_nameOf_eq (hjoin first hfirst) (hjoin second hsecond)
    rwa [List.map_map] at hnames
  cases outputs with
  | nil =>
    cases hrun
    exact ⟨"", .refl _, nofun, nofun⟩
  | cons first rest =>
    obtain ⟨_, between, hfirst, hrest⟩ := exists_of_run_bind_eq_ok hrun
    obtain ⟨hunlinked, hothers⟩ := List.forall_mem_cons.mp hunlinked
    obtain ⟨hname, hnames⟩ := List.nodup_cons.mp hnames
    rw [List.map_cons] at hjoin
    obtain ⟨hjoin, hjoins⟩ := List.forall_mem_cons.mp hjoin
    obtain ⟨here, hputs⟩ := puts_of_put h hunlinked hfirst
    refine ⟨here, .cons hputs (heldIn_of_leadsOnlyTo hputs.closed hrest ?_ hnames ?_) hname⟩
    · exact fun output houtput hchanged =>
        (hothers output houtput hchanged).of_linksIn hputs.grows.linksIn
    · -- the first output was put into the directory of all of them
      intro output houtput
      obtain ⟨hfront, hstart⟩ :=
        FileTree.frontOf_eq_of_isNameIn hjoin (hjoins _ (List.mem_map_of_mem houtput))
      rw [← hfront, ← hstart]
      exact hputs.leadsOnlyTo

end Run

end Output

namespace Workspace

variable {α β : Type}

lemma onTree_run (action : FileTree.Action α) (workspace : Workspace) :
    (onTree action).run workspace = ((action.run workspace.tree).1.mapError Error.file,
      { workspace with tree := (action.run workspace.tree).2 }) := by
  rcases hrun : action.run workspace.tree with ⟨outcome, tree⟩
  rw [onTree, run_get_bind]
  simp only [hrun]
  cases outcome <;> rfl

lemma run_of_onTree {action : FileTree.Action α} {workspace after : Workspace} {a : α}
    (h : (onTree action).run workspace = (.ok a, after)) :
    action.run workspace.tree = (.ok a, after.tree) := by
  rw [onTree_run] at h
  obtain ⟨hok, rfl⟩ := Prod.mk.inj h
  exact Prod.ext (mapError_eq_ok.mp hok) rfl

lemma action_ext {action other : Action α}
    (h : ∀ workspace, action.run workspace = other.run workspace) : action = other := funext h

lemma onTree_bind (action : FileTree.Action α) (next : α → FileTree.Action β) :
    onTree (action >>= next) = onTree action >>= fun a => onTree (next a) := by
  refine action_ext fun workspace => ?_
  have hfirst := onTree_run action workspace
  rcases hrun : action.run workspace.tree with ⟨_ | a, tree⟩
  · rw [hrun] at hfirst
    rw [run_bind_of_error hfirst, onTree_run, run_bind_of_error hrun]
    rfl
  · rw [hrun] at hfirst
    rw [run_bind_of_ok hfirst, onTree_run, run_bind_of_ok hrun, onTree_run]

/-- Files that are written for the items of a list. -/
lemma mapM_onTree (path : α → Path) (put : α → FileTree.Action Unit) (items : List α) :
    items.mapM (fun a => do onTree (put a); return path a) =
      (do onTree (items.forM put); return items.map path) := by
  induction items with
  | nil => rfl
  | cons a rest ih =>
    have hcons : (a :: rest).forM put = (do put a; rest.forM put) := rfl
    rw [List.mapM_cons, ih, hcons, onTree_bind]
    simp only [bind_assoc, pure_bind, List.map_cons]

end Workspace

end ReleaseFlags
