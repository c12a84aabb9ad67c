import ReleaseFlags.Proofs.Components
import ReleaseFlags.Proofs.FileTree.Growth
import ReleaseFlags.Proofs.Outcome

/-!
# Files that were written

The directories on the way to a path are made one after the other, and then the components of the
way lead through them (`Makes`).  A write puts its text into a file in the directory that was made,
under the name that the path ends in, and changes nothing else (`puts_of_write`).  Whatever is
written later, the path leads to no other file, as long as it leads anywhere (`Puts.eq_childOf`).
-/

namespace ReleaseFlags

namespace FileTree

variable {tree made after : FileTree} {here there start name directory content : String}
  {passed cs : List String} {path : Path}

/-! ### Making directories -/

/-- The way from the start was made: it leads to a directory, and only directories were added. -/
structure Makes (tree : FileTree) (start : String) (cs : List String) (made : FileTree)
    (there : String) : Prop where
  grows : Grows (fun _ => False) tree made
  closed : made.Closed
  node?_there : made.node? there = some .directory
  leads : ∃ n ≤ linkLimit, made.Leads n start cs there

lemma Makes.trans {between : FileTree} (h : Grows (fun _ => False) tree between)
    (h' : Makes between start cs made there) : Makes tree start cs made there :=
  { h' with grows := h.trans h'.grows }

lemma makes_makeOnward (h : tree.Closed) (hcs : ∀ component ∈ cs, '/' ∉ component.toList)
    (hhere : tree.node? here = some .directory)
    (hpassed : ∃ n ≤ linkLimit, tree.Leads n start passed here)
    (hrun : makeOnward start tree passed here cs = (made, some there)) :
    Makes tree start (passed ++ named cs) made there := by
  induction cs generalizing tree passed here with
  | nil =>
    cases hrun
    exact ⟨.refl _, h, hhere, by rwa [named, List.filter_nil, List.append_nil]⟩
  | cons name rest ih =>
    obtain ⟨hname, hrest⟩ := List.forall_mem_cons.mp hcs
    rw [makeOnward] at hrun
    split at hrun
    · next hblank =>
      rw [named_cons_of_blank hblank]
      exact ih h hrest hhere hpassed hrun
    next hblank =>
    rw [named_cons hblank, List.append_cons]
    obtain ⟨n, hn, hleads⟩ := hpassed
    split at hrun
    · next habove =>
      subst habove
      exact ih h hrest (h.node?_above here _ hhere) ⟨n, hn, hleads.concat hhere .up⟩ hrun
    next habove =>
    split at hrun
    · cases hrun
    next hshort =>
    have hentry : IsEntryName name := ⟨hblank, habove, Bool.eq_false_iff.mpr hshort⟩
    split at hrun
    · next hnone =>
      have hgrows : Grows (fun _ => False) tree (tree.place (childOf here name) .directory) :=
        .place_directory hnone (childOf_ne_empty here name)
      have hdirectory : (tree.place (childOf here name) .directory).node? (childOf here name) =
          some .directory := by
        rw [node?_place (childOf_ne_empty here name), if_pos rfl]
      have hlinks := hgrows.linksIn_after fun _ _ => False.elim
      have hway := (hgrows.leads hlinks hleads).concat (hgrows.directory hhere)
        (.enter hentry hdirectory fun _ => nofun)
      exact .trans hgrows (ih (h.place hname hhere (.inl rfl)) hrest hdirectory ⟨n, hn, hway⟩ hrun)
    · split at hrun
      · next next hfollow =>
        split at hrun
        · next hnext => exact ih h hrest hnext (follow_eq_ok_iff.mp hfollow) hrun
        · cases hrun
      · cases hrun

lemma slash_notMem_components {component : String} (h : component ∈ components directory) :
    '/' ∉ component.toList := by
  obtain ⟨piece, hpiece, rfl⟩ := List.mem_map.mp h
  rw [String.toList_ofList]
  exact not_mem_of_mem_pieces hpiece

lemma makes_makeDirectories (h : tree.Closed)
    (hrun : tree.makeDirectories directory = (made, some there)) :
    Makes tree (startOf directory tree.workingDirectory) (named (components directory)) made
      there := by
  rw [makeDirectories] at hrun
  split at hrun
  · cases hrun
  · have hstart : ∃ n ≤ linkLimit, tree.Leads n (startOf directory tree.workingDirectory) []
        (startOf directory tree.workingDirectory) := ⟨0, Nat.zero_le _, .done _⟩
    exact makes_makeOnward h (fun _ => slash_notMem_components) (h.startOf directory) hstart hrun

/-! ### The directory of a path and the name in it -/

lemma pieces_ne_nil (separator : Char) (text : List Char) : pieces separator text ≠ [] := by
  rw [pieces_eq_splitOn]
  exact text.splitOn_ne_nil separator

/-- A text begins with a slash exactly if something comes after an empty first component. -/
lemma head?_eq_slash_iff (text : String) : text.toList.head? = some '/' ↔
    (components text).head? = some "" ∧ (components text).tail ≠ [] := by
  rw [components]
  cases text.toList with
  | nil => simp [pieces]
  | cons c rest =>
    obtain ⟨piece, more, hpieces⟩ := List.exists_cons_of_ne_nil (pieces_ne_nil '/' rest)
    rw [pieces]
    split
    · next heq => simp [heq, hpieces]
    · next hne =>
      simp [hne, hpieces]

lemma startOf_congr {text : String} (h : text.toList.head? = some '/' ↔
      directory.toList.head? = some '/') (here : String) :
    startOf text here = startOf directory here :=
  if_congr h rfl rfl

/-- The text of components between slashes has these components. -/
lemma components_intercalate (hne : cs ≠ []) (hcs : ∀ component ∈ cs, '/' ∉ component.toList) :
    components ("/".intercalate cs) = cs := by
  have hparts : ∀ part ∈ cs.map String.toList, '/' ∉ part := by
    rintro _ hpart
    obtain ⟨component, hcomponent, rfl⟩ := List.mem_map.mp hpart
    exact hcs component hcomponent
  have hchars : ("/".intercalate cs).toList = ['/'].intercalate (cs.map String.toList) :=
    String.toList_intercalate
  have hpieces : pieces '/' (['/'].intercalate (cs.map String.toList)) = cs.map String.toList :=
    Path.components_intercalate (by simpa using hne) hparts
  rw [components, hchars, hpieces, List.map_map]
  simp [Function.comp_def]

/-- The path is that of a name in a directory. -/
structure IsSplit (path directory name : String) : Prop where
  exists_front : ∃ front, components path = front ++ [name] ∧
    named front = named (components directory)
  startOf_eq : ∀ here, startOf path here = startOf directory here
  not_blank : ¬ IsBlank name
  ne_above : name ≠ ".."

lemma named_of_forall (h : ∀ component ∈ cs, IsBlank component) : named cs = [] :=
  List.filter_eq_nil_iff.mpr fun component hmem hkept => of_decide_eq_true hkept (h component hmem)

lemma snd_splitPath_of_blank {text last : String} {front : List String}
    (hcs : (components text).reverse = last :: front) (hlast : IsBlank last) :
    (splitPath text).2 = none := by
  unfold splitPath
  simp only [hcs]
  split
  · rfl
  · simp only [hlast, decide_true, true_or, if_true]
    split <;> rfl

/-- A directory that is written by the components before the name, without the blank ones at their
end. -/
lemma isSplit_of_intercalate {text key : String} {front blanks : List String}
    (hcs : components text = front ++ [key] ++ blanks ++ [name]) (hkey : ¬ IsBlank key)
    (hblanks : ∀ component ∈ blanks, IsBlank component) (hname : ¬ IsBlank name)
    (habove : name ≠ "..") : IsSplit text ("/".intercalate (front ++ [key])) name := by
  have hslash : ∀ component ∈ front ++ [key], '/' ∉ component.toList := by
    intro component hmem
    have hpart : component ∈ components text := by
      rw [hcs, List.append_assoc]
      exact List.mem_append_left _ hmem
    exact slash_notMem_components hpart
  have hdirectory : components ("/".intercalate (front ++ [key])) = front ++ [key] :=
    components_intercalate (by simp) hslash
  refine ⟨⟨front ++ [key] ++ blanks, hcs, ?_⟩, startOf_congr ?_, hname, habove⟩
  · rw [hdirectory, named_append, named_of_forall hblanks, List.append_nil]
  · rw [head?_eq_slash_iff, head?_eq_slash_iff, hdirectory, hcs]
    cases front with
    | nil =>
      have hne : key ≠ "" := fun hempty => hkey (.inl hempty)
      simp [hne]
    | cons first front => simp

/-- A directory that is written by blank components alone. -/
lemma isSplit_of_blank {text first : String} {blanks : List String}
    (hcs : components text = first :: blanks ++ [name])
    (hblanks : ∀ component ∈ first :: blanks, IsBlank component) (hname : ¬ IsBlank name)
    (habove : name ≠ "..") : IsSplit text (if first = "" then "/" else first) name := by
  rcases hblanks first List.mem_cons_self with rfl | rfl
  · refine ⟨⟨_, hcs, named_of_forall hblanks⟩, startOf_congr ?_, hname, habove⟩
    rw [head?_eq_slash_iff, hcs]
    simp
  · refine ⟨⟨_, hcs, named_of_forall hblanks⟩, startOf_congr ?_, hname, habove⟩
    rw [head?_eq_slash_iff, hcs]
    simp

/-- Blank components are followed by nothing, or by another component. -/
lemma dropWhile_isBlank_cases (cs : List String) :
    cs.dropWhile (fun c => decide (IsBlank c)) = [] ∧ (∀ component ∈ cs, IsBlank component) ∨
    ∃ blanks key kept, cs.dropWhile (fun c => decide (IsBlank c)) = key :: kept ∧
      cs = blanks ++ key :: kept ∧ (∀ component ∈ blanks, IsBlank component) ∧ ¬ IsBlank key := by
  induction cs with
  | nil => exact .inl ⟨rfl, nofun⟩
  | cons first rest ih =>
    by_cases hfirst : IsBlank first
    · rw [List.dropWhile_cons_of_pos (by simpa using hfirst)]
      rcases ih with ⟨hnil, hall⟩ | ⟨blanks, key, kept, hdrop, rfl, hblanks, hkey⟩
      · exact .inl ⟨hnil, List.forall_mem_cons.mpr ⟨hfirst, hall⟩⟩
      · exact .inr ⟨first :: blanks, key, kept, hdrop, rfl,
          List.forall_mem_cons.mpr ⟨hfirst, hblanks⟩, hkey⟩
    · rw [List.dropWhile_cons_of_neg (by simpa using hfirst)]
      exact .inr ⟨[], first, rest, rfl, rfl, nofun, hfirst⟩

lemma isSplit_of_splitPath {text : String} (h : splitPath text = (directory, some name)) :
    IsSplit text directory name := by
  cases hreverse : (components text).reverse with
  | nil => exact absurd (List.reverse_eq_nil_iff.mp hreverse) (by simp [components, pieces_ne_nil])
  | cons last front =>
    have hcs : components text = front.reverse ++ [last] := by
      rw [← List.reverse_cons, ← hreverse, List.reverse_reverse]
    by_cases hblank : IsBlank last
    · have hnone := snd_splitPath_of_blank hreverse hblank
      rw [h] at hnone
      cases hnone
    have hlast (hname : (if IsBlank last ∨ last = ".." then none else some last) = some name) :
        last = name ∧ last ≠ ".." := by
      split at hname
      · cases hname
      · next hnot => exact ⟨Option.some.inj hname, fun habove => hnot (.inr habove)⟩
    rw [splitPath] at h
    simp only [hreverse] at h
    rw [List.dropWhile_cons_of_neg (by simpa using hblank)] at h
    simp only [decide_eq_true_eq] at h
    rcases dropWhile_isBlank_cases front with
      ⟨hkept, hblanks⟩ | ⟨blanks, key, kept, hkept, rfl, hblanks, hkey⟩
    · rw [hkept] at h
      rcases List.eq_nil_or_concat' front with rfl | ⟨blanks, first, rfl⟩
      · obtain ⟨rfl, hname⟩ := Prod.mk.inj h
        obtain ⟨rfl, habove⟩ := hlast hname
        refine ⟨⟨[], hcs, rfl⟩, startOf_congr ?_, hblank, habove⟩
        rw [head?_eq_slash_iff, hcs]
        simp
      · rw [List.getLast?_concat] at h
        obtain ⟨rfl, hname⟩ := Prod.mk.inj h
        obtain ⟨rfl, habove⟩ := hlast hname
        have hcs : components text = first :: blanks.reverse ++ [last] := by simpa using hcs
        refine isSplit_of_blank hcs ?_ hblank habove
        simpa [or_comm, forall_and, or_imp] using hblanks
    · rw [hkept] at h
      obtain ⟨rfl, hname⟩ := Prod.mk.inj h
      obtain ⟨rfl, habove⟩ := hlast hname
      have hcs : components text = kept.reverse ++ [key] ++ blanks.reverse ++ [last] := by
        simpa using hcs
      rw [List.reverse_cons]
      exact isSplit_of_intercalate hcs hkey (by simpa using hblanks) hblank habove

/-- The way to the directory was made. -/
lemma Makes.of_isSplit {text : String} {front : List String}
    (h : Makes tree (startOf directory tree.workingDirectory) (named (components directory)) made
      here) (hsplit : IsSplit text directory name) (hcs : components text = front ++ [name]) :
    Makes tree (startOf text tree.workingDirectory) front made here := by
  obtain ⟨front', hcs', hfront⟩ := hsplit.exists_front
  obtain rfl : front' = front := (List.append_inj' (hcs'.symm.trans hcs) rfl).1
  obtain ⟨n, hn, hleads⟩ := h.leads
  rw [← hfront] at hleads
  rw [hsplit.startOf_eq]
  exact { h with leads := ⟨n, hn, hleads.of_named h.node?_there⟩ }

/-! ### Writing -/

/-- The components of a path before the last one. -/
def frontOf (path : Path) : List String := (components path.text).dropLast

/-- The last component of a path. -/
def nameOf (path : Path) : String := (components path.text).getLastD ""

lemma components_eq (path : Path) : components path.text = frontOf path ++ [nameOf path] := by
  have hne : components path.text ≠ [] := by simp [components, pieces_ne_nil]
  rw [frontOf, nameOf, List.getLastD_eq_getLast?, List.getLast?_eq_some_getLast hne]
  exact (List.dropLast_concat_getLast hne).symm

lemma nameOf_eq {front : List String} (h : components path.text = front ++ [name]) :
    nameOf path = name :=
  List.singleton_injective (List.append_inj' ((components_eq path).symm.trans h) rfl).2

lemma frontOf_eq {front : List String} (h : components path.text = front ++ [name]) :
    frontOf path = front :=
  (List.append_inj' ((components_eq path).symm.trans h) rfl).1

lemma slash_notMem_nameOf (path : Path) : '/' ∉ (nameOf path).toList := by
  have hmem : nameOf path ∈ components path.text := by simp [components_eq]
  exact slash_notMem_components hmem

/-- Nowhere in the tree is a link with the name that the path ends in. -/
def Unlinked (tree : FileTree) (path : Path) : Prop :=
  ∀ here target, tree.node? (childOf here (nameOf path)) ≠ some (.link target)

lemma unlinked_of_entries (h : ∀ e ∈ tree.nodes.entries, e.2.isLink = false) :
    tree.Unlinked path := by
  intro here target hlink
  rcases node?_iff.mp hlink with ⟨-, hdirectory⟩ | ⟨-, hentry⟩
  · cases hdirectory
  · cases h _ hentry

lemma Unlinked.of_linksIn (h : tree.Unlinked path) (hlinks : after.LinksIn tree) :
    after.Unlinked path :=
  fun here target hlink => h here target (hlinks _ _ hlink)

/-- The text is in the file with the name that the path ends in, in the directory where the way was
made to, and no other file was changed. -/
structure Puts (tree : FileTree) (path : Path) (content here : String) (after : FileTree) :
    Prop where
  isEntryName : IsEntryName (nameOf path)
  exists_made : ∃ made,
    Makes tree (startOf path.text tree.workingDirectory) (frontOf path) made here ∧
      Grows (· = childOf here (nameOf path)) made after
  closed : after.Closed
  node?_eq : after.node? (childOf here (nameOf path)) = some (.file (some content))
  resolve_eq : tree.LinksIn after → after.resolve path.text = .ok (childOf here (nameOf path))

namespace Puts

lemma grows (h : tree.Puts path content here after) :
    Grows (· = childOf here (nameOf path)) tree after := by
  obtain ⟨made, hmakes, hgrows⟩ := h.exists_made
  exact (hmakes.grows.mono fun _ => False.elim).trans hgrows

lemma linksIn (h : tree.Puts path content here after) (hunlinked : tree.Unlinked path) :
    tree.LinksIn after := by
  refine h.grows.linksIn_after ?_
  rintro location target rfl
  exact hunlinked here target

lemma leadsOnlyTo (h : tree.Puts path content here after) :
    after.LeadsOnlyTo (startOf path.text after.workingDirectory) (frontOf path) here := by
  obtain ⟨made, hmakes, hgrows⟩ := h.exists_made
  obtain ⟨n, -, hleads⟩ := hmakes.leads
  rw [h.grows.workingDirectory_eq]
  exact hleads.leadsOnlyTo.of_grows hgrows

/-- The way was made to the only directory where it can lead. -/
lemma eq_of_leadsOnlyTo (h : tree.Puts path content here after)
    (honly : tree.LeadsOnlyTo (startOf path.text tree.workingDirectory) (frontOf path) there) :
    here = there := by
  obtain ⟨made, hmakes, -⟩ := h.exists_made
  obtain ⟨n, -, hleads⟩ := hmakes.leads
  exact honly _ made n here hmakes.grows hleads hmakes.node?_there

end Puts

/-- Where the components before the name lead to one directory only, the path leads to what has the
name there, or nowhere. -/
lemma LeadsOnlyTo.eq_childOf {location : String}
    (h : tree.LeadsOnlyTo (startOf path.text tree.workingDirectory) (frontOf path) here)
    (hname : IsEntryName (nameOf path))
    (hnode : ∀ target, tree.node? (childOf here (nameOf path)) ≠ some (.link target))
    (hlocation : tree.resolve path.text = .ok location) :
    location = childOf here (nameOf path) := by
  obtain ⟨-, n, -, hleads⟩ := resolve_eq_ok_iff.mp hlocation
  rw [components_eq] at hleads
  obtain ⟨k, m, there, -, hfront, hend⟩ := hleads.exists_of_append
  have honly (hthere : tree.node? there = some .directory) : there = here :=
    h (fun _ => False) tree k there (.refl tree) hfront hthere
  cases hend with
  | pass hthere hnext hdone =>
    obtain rfl := honly hthere
    cases hdone
    exact (hnext.exists_node hname).1
  | jump hthere _ hlink _ =>
    obtain rfl := honly hthere
    exact absurd hlink (hnode _)

/-- Whatever is written later, the path leads to the file, or nowhere. -/
lemma Puts.eq_childOf {later : FileTree} {location : String} {changed : String → Prop}
    (h : tree.Puts path content here after) (hgrows : Grows changed after later)
    (hlocation : later.resolve path.text = .ok location) :
    location = childOf here (nameOf path) := by
  obtain ⟨kept, hfile⟩ := hgrows.file h.node?_eq
  have honly := h.leadsOnlyTo.of_grows hgrows
  rw [← hgrows.workingDirectory_eq] at honly
  exact honly.eq_childOf h.isEntryName (by simp [hfile]) hlocation

/-- What was written is read back until another text is put into the file. -/
lemma Puts.read_eq {later : FileTree} {changed : String → Prop}
    (h : tree.Puts path content here after) (hgrows : Grows changed after later)
    (hchanged : ¬ changed (childOf here (nameOf path))) (hfound : later.exists path = true) :
    later.read path = .ok content := by
  obtain ⟨location, -, hlocation, -⟩ := exists_iff.mp hfound
  obtain rfl := h.eq_childOf hgrows hlocation
  exact read_eq_ok_iff.mpr ⟨_, hlocation, hgrows.unchanged h.node?_eq hchanged⟩

lemma exists_of_write (hrun : (write path content).run tree = (.ok (), after)) :
    ∃ directory name made here, splitPath path.text = (directory, some name) ∧
      tree.makeDirectories directory = (made, some here) ∧ unusable? path.text = none ∧
      isLongName (draftName name) = false ∧ made.node? (childOf here name) ≠ some .directory ∧
      after = made.place (childOf here name) (.file (some content)) := by
  rcases hsplit : splitPath path.text with ⟨directory, name?⟩
  rcases hmade : tree.makeDirectories directory with ⟨made, here?⟩
  rw [write, hsplit] at hrun
  simp only at hrun
  rw [run_get_bind] at hrun
  simp only [hmade] at hrun
  rw [run_bind_of_ok (rfl : (set made : Action PUnit).run tree = (.ok ⟨⟩, made))] at hrun
  cases here? with
  | none => cases hrun
  | some here =>
    cases name? with
    | none => cases hrun
    | some name =>
      simp only at hrun
      split at hrun
      · cases hrun
      · next hwrites =>
        cases hrun
        obtain ⟨husable, hlong, hdirectory⟩ : unusable? path.text = none ∧
            isLongName (draftName name) = false ∧
            made.node? (childOf here name) ≠ some .directory := by simpa using hwrites
        exact ⟨directory, name, made, here, rfl, hmade, husable, hlong, hdirectory, rfl⟩

lemma short_of_draftName (h : isLongName (draftName name) = false) : isLongName name = false := by
  simp only [isLongName, draftName, String.utf8ByteSize_append, decide_eq_false_iff_not] at h ⊢
  omega

/-- A path leads to the file that was put into the directory that was made for it. -/
lemma Makes.resolve_eq {text : String} {front : List String} {kept : Option String}
    {changed : String → Prop} (h : Makes tree (startOf text tree.workingDirectory) front made here)
    (hcs : components text = front ++ [name]) (husable : unusable? text = none)
    (hname : IsEntryName name) (hgrows : Grows changed made after) (hlinks : made.LinksIn after)
    (hnode : after.node? (childOf here name) = some (.file kept)) :
    after.resolve text = .ok (childOf here name) := by
  obtain ⟨n, hn, hleads⟩ := h.leads
  have hway := hgrows.leads hlinks hleads
  rw [resolve_eq_ok_iff, hcs, hgrows.workingDirectory_eq, h.grows.workingDirectory_eq]
  exact ⟨husable, n, hn,
    hway.concat (hgrows.directory h.node?_there) (.enter hname hnode fun _ => nofun)⟩

/-- **What is written is in its file.** -/
lemma puts_of_write (h : tree.Closed) (hrun : (write path content).run tree = (.ok (), after)) :
    ∃ here, tree.Puts path content here after := by
  obtain ⟨directory, name, made, here, hpath, hmade, husable, hlong, hdirectory, rfl⟩ :=
    exists_of_write hrun
  have hsplit := isSplit_of_splitPath hpath
  obtain ⟨front, hcs, -⟩ := hsplit.exists_front
  obtain rfl := nameOf_eq hcs
  obtain rfl := frontOf_eq hcs
  have hmakes := (makes_makeDirectories h hmade).of_isSplit hsplit hcs
  have hname : IsEntryName (nameOf path) :=
    ⟨hsplit.not_blank, hsplit.ne_above, short_of_draftName hlong⟩
  have hne := childOf_ne_empty here (nameOf path)
  have hgrows : Grows (· = childOf here (nameOf path)) made
      (made.place (childOf here (nameOf path)) (.file (some content))) :=
    .place_file hdirectory hne
  have hfile : (made.place (childOf here (nameOf path)) (.file (some content))).node?
      (childOf here (nameOf path)) = some (.file (some content)) := by
    rw [node?_place hne, if_pos rfl]
  refine ⟨here, hname, ⟨made, hmakes, hgrows⟩, ?_, hfile, fun hlinks => ?_⟩
  · exact hmakes.closed.place (slash_notMem_nameOf path) hmakes.node?_there (.inr hdirectory)
  · exact hmakes.resolve_eq hcs husable hname hgrows (hmakes.grows.linksIn.trans hlinks) hfile

/-- A file that is read directly is as if its text was written just now. -/
lemma puts_of_read (h : tree.Closed) (hunlinked : tree.Unlinked path)
    (hread : tree.read path = .ok content) : ∃ here, tree.Puts path content here tree := by
  obtain ⟨location, hlocation, hnode⟩ := read_eq_ok_iff.mp hread
  obtain ⟨-, n, hn, hleads⟩ := resolve_eq_ok_iff.mp hlocation
  rw [components_eq] at hleads
  obtain ⟨k, m, here, rfl, hfront, hend⟩ := hleads.exists_of_append
  cases hend with
  | pass hhere hnext hdone =>
    cases hdone
    obtain ⟨hname, rfl⟩ := h.isEntryName hhere hnext hnode
    have hway : ∃ k ≤ linkLimit, tree.Leads k (startOf path.text tree.workingDirectory)
        (frontOf path) here := ⟨k, Nat.le_of_add_right_le hn, hfront⟩
    exact ⟨here, hname, ⟨tree, ⟨.refl tree, h, hhere, hway⟩, .refl tree⟩, h, hnode,
      fun _ => hlocation⟩
  | jump _ _ hlink _ => exact absurd hlink (hunlinked here _)

/-- A file that is left alone has the text already. -/
lemma write_or_read_of_writeIfChanged {changed : Bool}
    (hrun : (writeIfChanged path content).run tree = (.ok changed, after)) :
    (write path content).run tree = (.ok (), after) ∨
      tree.read path = .ok content ∧ after = tree := by
  have hwrite {between : FileTree} (hbetween : between = tree)
      (hrun : (do write path content; return true : Action Bool).run between =
        (.ok changed, after)) : (write path content).run tree = (.ok (), after) := by
    obtain ⟨_, written, hwritten, hrun⟩ := exists_of_run_bind_eq_ok hrun
    cases hrun
    exact hbetween ▸ hwritten
  rw [writeIfChanged, run_get_bind] at hrun
  split at hrun
  · obtain ⟨kept, between, hread, hrun⟩ := exists_of_run_bind_eq_ok hrun
    obtain ⟨hkept, rfl⟩ : tree.read path = .ok kept ∧ tree = between := by
      cases hfound : tree.read path <;> rw [hfound] at hread <;> cases hread
      exact ⟨rfl, rfl⟩
    split at hrun
    · next heq =>
      cases hrun
      exact .inr ⟨heq ▸ hkept, rfl⟩
    · exact .inl (hwrite rfl hrun)
  · exact .inl (hwrite rfl hrun)

/-! ### Names in one directory -/

/-- Names below a directory are the last components after those of the directory. -/
lemma exists_components_join (p : Path) : ∃ front, ∀ segment, Path.Flat segment → segment ≠ "" →
    components (p.join segment).text = front ++ [segment] := by
  have hsingle {segment : String} (h : Path.Flat segment) :
      pieces '/' segment.toList = [segment.toList] := by
    rw [pieces_eq_splitOn, List.splitOn_eq_singleton h.slash_notMem]
  rcases p.base_eq with hbase | ⟨front, hbase⟩
  · refine ⟨[], fun segment h hne => ?_⟩
    rw [components, Path.toList_join (h.endsInName hne), h.forward_eq, hbase, Path.forward,
      List.map_nil, List.nil_append, hsingle h]
    simp
  · refine ⟨(pieces '/' (Path.forward front)).map .ofList, fun segment h hne => ?_⟩
    have hslash : Path.forward ['/'] = ['/'] := by decide
    have happend : pieces '/' (Path.forward front ++ '/' :: segment.toList) =
        pieces '/' (Path.forward front) ++ pieces '/' segment.toList := Path.components_append ..
    rw [components, Path.toList_join (h.endsInName hne), h.forward_eq, hbase, Path.forward_append,
      hslash, List.append_assoc, List.singleton_append, happend, hsingle h]
    simp

lemma nameOf_join {segment : String} (h : Path.Flat segment) (hne : segment ≠ "") (p : Path) :
    nameOf (p.join segment) = segment := by
  obtain ⟨front, hcs⟩ := exists_components_join p
  exact nameOf_eq (hcs segment h hne)

/-- Names in one directory are reached in the same way. -/
lemma frontOf_eq_of_isNameIn {p first second : Path} (h : p.IsNameIn first)
    (h' : p.IsNameIn second) : frontOf first = frontOf second ∧
      ∀ here, startOf first.text here = startOf second.text here := by
  obtain ⟨segment, hflat, hne, rfl⟩ := h
  obtain ⟨segment', hflat', hne', rfl⟩ := h'
  obtain ⟨front, hcs⟩ := exists_components_join p
  refine ⟨?_, startOf_congr ?_⟩
  · rw [frontOf_eq (hcs segment hflat hne), frontOf_eq (hcs segment' hflat' hne')]
  · rw [head?_eq_slash_iff, head?_eq_slash_iff, hcs segment hflat hne, hcs segment' hflat' hne']
    cases front with
    | nil => simp [hne, hne']
    | cons first front => simp

lemma eq_of_nameOf_eq {p first second : Path} (h : p.IsNameIn first) (h' : p.IsNameIn second)
    (heq : nameOf first = nameOf second) : first = second := by
  obtain ⟨segment, hflat, hne, rfl⟩ := h
  obtain ⟨segment', hflat', hne', rfl⟩ := h'
  rw [nameOf_join hflat hne, nameOf_join hflat' hne'] at heq
  rw [heq]

end FileTree

end ReleaseFlags
