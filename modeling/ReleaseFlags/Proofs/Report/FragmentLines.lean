import ReleaseFlags.Proofs.Report.Variables

/-!
# The lines of a fragment

A fragment is made of lines (`text_eq_unlines`).  Above the heading of the values stand the list of
the keys, the partitions and the metadata, whose variables all start with one mark
(`marked_settings`); no other line starts with it, and none is the heading, whatever the configs and
flags are called.
-/

namespace ReleaseFlags

namespace Makefile

variable {registry : Registry} {resolved : Resolved} {extras : List (String × Resolved)}
  {flags : Flags} {target : String}

/-! ### The lines of a fragment -/

/-- What a fragment shows of a flag besides its key. -/
def shownOf (flag : FlagState) : List String :=
  [flag.declaration.value.marshal, flag.value.marshal, flag.declaredIn, flag.setIn,
    flag.declaration.namespaceName] ++ flag.declaration.containers

/-- Every name, path, namespace and value that a fragment shows is one line. -/
structure Plain (registry : Registry) (resolved : Resolved) (flags : Flags) (target : String) :
    Prop where
  name : OneLine resolved.name
  target : OneLine target
  listable : ∀ name ∈ registry.listableNames, OneLine name
  files : ∀ path ∈ resolved.filesUsed.names, OneLine path
  keys : ∀ key ∈ flags.names, OneLine key
  flags : ∀ key flag, flags.get? key = some flag → ∀ shown ∈ shownOf flag, OneLine shown

/-- The line above the values. -/
def heading : String := "# Values for all build flags"

/-- The lines above the list of flags. -/
def headLines (registry : Registry) (resolved : Resolved) (target : String) : List String :=
  ["# TARGET_RELEASE=" ++ resolved.name] ++
  (if target ≠ resolved.name then ["# User specified TARGET_RELEASE=" ++ target] else []) ++
  [assignment "ALL_RELEASE_CONFIGS_FOR_PRODUCT" (Words.toLine registry.listableNames)] ++
  (if resolved.report.disallowLunchUse then [assignment "_disallow_lunch_use" "true"] else []) ++
  ["_used_files := " ++ Words.toLine resolved.filesUsed.names]

/-- What is assigned between these lines and the heading. -/
def settings (flags : Flags) : List (String × String) :=
  [("_ALL_RELEASE_FLAGS", Words.toLine flags.names)] ++
  (partitions flags).entries.map
    (fun entry => ("_ALL_RELEASE_FLAGS.PARTITIONS." ++ entry.1, Words.toLine entry.2)) ++
  (metadataVariables flags).entries

/-- What is assigned below the heading. -/
def valuesOf (flags : Flags) : List (String × String) :=
  flags.entries.map fun entry => (entry.1, entry.2.value.marshal)

/-- The lines of several assignments. -/
def assignmentLines (entries : List (String × String)) : List String :=
  entries.map fun entry => assignment entry.1 entry.2

lemma unlines_assignmentLines (entries : List (String × String)) :
    unlines (assignmentLines entries) = String.join (entries.map fun e => assign e.1 e.2) := by
  rw [unlines, assignmentLines, List.map_map]
  rfl

/-- A fragment is made of its lines. -/
lemma text_eq_unlines : text registry resolved extras target =
    unlines (headLines registry resolved target ++
      assignmentLines (settings (exportedFlags resolved extras)) ++ ["", "", heading] ++
      assignmentLines (valuesOf (exportedFlags resolved extras))) := by
  have hheading : unlines ["", "", heading] = valuesHeading := by decide
  simp only [headLines, settings, valuesOf, unlines_append, unlines_ite, unlines_singleton,
    unlines_assignmentLines, hheading, List.map_append, List.map_map, List.map_cons, List.map_nil,
    String.join_append, String.join_cons, String.join_nil, String.append_empty]
  delta text assign assignment Words.toLine
  simp only [String.append_assoc]
  rfl

/-! ### Single lines -/

lemma forall_mem_headLines {P : String → Prop} (hname : P ("# TARGET_RELEASE=" ++ resolved.name))
    (htarget : P ("# User specified TARGET_RELEASE=" ++ target))
    (hlistable : P (assignment "ALL_RELEASE_CONFIGS_FOR_PRODUCT"
      (Words.toLine registry.listableNames)))
    (hlunch : P (assignment "_disallow_lunch_use" "true"))
    (hfiles : P ("_used_files := " ++ Words.toLine resolved.filesUsed.names)) :
    ∀ line ∈ headLines registry resolved target, P line := by
  intro line hline
  simp only [headLines, List.mem_append, List.mem_singleton, List.mem_ite_nil_right] at hline
  rcases hline with (((rfl | ⟨-, rfl⟩) | rfl) | ⟨-, rfl⟩) | rfl
  · exact hname
  · exact htarget
  · exact hlistable
  · exact hlunch
  · exact hfiles

lemma oneLine_assignment {name value : String} (hname : OneLine name) (hvalue : OneLine value) :
    OneLine (assignment name value) :=
  (hname.append (by decide)).append hvalue

section Plain

variable (h : Plain registry resolved flags target)

include h

lemma Plain.headLines : ∀ line ∈ headLines registry resolved target, OneLine line := by
  have hlistable : OneLine (Words.toLine registry.listableNames) := .toLine h.listable
  have hfiles : OneLine (Words.toLine resolved.filesUsed.names) := .toLine h.files
  exact forall_mem_headLines (.append (by decide) h.name) (.append (by decide) h.target)
    (oneLine_assignment (by decide) hlistable) (by decide) (.append (by decide) hfiles)

lemma Plain.tells {key suffix value : String} {flag : FlagState}
    (hflag : flags.get? key = some flag) (htells : Tells flag suffix value) : OneLine value := by
  have hshown := h.flags key flag hflag
  cases htells with
  | type =>
    unfold Value.typeName
    split <;> decide
  | partitions => exact .toLine fun container hmem => hshown container (by simp [shownOf, hmem])
  | _ => exact hshown _ (by simp [shownOf])

end Plain

/-- The variable of a partition has the form of one that tells about a flag. -/
lemma variableOf_partitions (partition : String) :
    variableOf "PARTITIONS" partition = "_ALL_RELEASE_FLAGS.PARTITIONS." ++ partition := by
  have hmark : "_ALL_RELEASE_FLAGS.PARTITIONS.".toList =
      "_ALL_RELEASE_FLAGS.".toList ++ "PARTITIONS".toList ++ ['.'] := by decide
  rw [← String.toList_inj, toList_variableOf, String.toList_append, hmark,
    List.append_assoc _ ['.'], List.singleton_append]

/-- What the settings are: the list of the keys, and variables of a key or partition. -/
lemma forall_mem_settings {P : String × String → Prop}
    (hlist : P ("_ALL_RELEASE_FLAGS", Words.toLine flags.names))
    (hpartition : ∀ partition members, (partitions flags).get? partition = some members →
      P (variableOf "PARTITIONS" partition, Words.toLine members))
    (hmetadata : ∀ key suffix value flag, flags.get? key = some flag → Tells flag suffix value →
      P (variableOf key suffix, value)) : ∀ entry ∈ settings flags, P entry := by
  intro entry hentry
  rcases List.mem_append.mp hentry with hentry | hentry
  · rcases List.mem_append.mp hentry with hentry | hentry
    · obtain rfl := List.mem_singleton.mp hentry
      exact hlist
    · obtain ⟨⟨partition, members⟩, hmem, rfl⟩ := List.mem_map.mp hentry
      exact variableOf_partitions partition ▸
        hpartition partition members (NameMap.mem_entries.mp hmem)
  · obtain ⟨var, value⟩ := entry
    obtain ⟨key, flag, suffix, hflag, htells, rfl⟩ :=
      get?_metadataVariables.mp (NameMap.mem_entries.mp hentry)
    exact hmetadata key suffix value flag hflag htells

lemma notMem_variableOf {c : Char} {key suffix : String}
    (hc : c ∉ "_ALL_RELEASE_FLAGS.".toList) (hkey : c ∉ key.toList) (hsuffix : c ∉ suffix.toList) :
    c ∉ (variableOf key suffix).toList := by
  have hdot : c ≠ '.' := by
    rintro rfl
    exact hc (by decide)
  rw [toList_variableOf]
  simp only [List.mem_append, List.mem_cons, not_or]
  exact ⟨⟨hc, hkey⟩, hdot, hsuffix⟩

/-- The text starts with the name of the variable that lists the keys. -/
def Marked (text : String) : Prop := "_ALL_RELEASE_FLAGS".toList <+: text.toList

instance (text : String) : Decidable (Marked text) := inferInstanceAs (Decidable (_ <+: _))

lemma mark_dot : "_ALL_RELEASE_FLAGS.".toList = "_ALL_RELEASE_FLAGS".toList ++ ['.'] := by decide

lemma marked_variableOf (key suffix : String) : Marked (variableOf key suffix) := by
  rw [Marked, toList_variableOf, mark_dot, List.append_assoc, List.append_assoc]
  exact List.prefix_append _ _

section WellSpelled

variable (h : WellSpelled flags)

include h

lemma WellSpelled.partition {partition : String} {members : List String}
    (hget : (partitions flags).get? partition = some members) : Spelled 'a' 'z' partition := by
  obtain ⟨⟨key, flag, hflag, hmem⟩, -⟩ := partitioned_partitions flags partition members hget
  exact h.containers key flag hflag partition hmem

lemma WellSpelled.space_notMem : ∀ entry ∈ settings flags, ' ' ∉ entry.1.toList := by
  have hlist : ' ' ∉ "_ALL_RELEASE_FLAGS".toList := by decide
  refine forall_mem_settings hlist (fun partition members hget => ?_)
    fun key suffix value flag hflag htells => ?_
  · have hpartition : ' ' ∉ partition.toList := (h.partition hget).notMem (by decide)
    exact notMem_variableOf (by decide) (by decide) hpartition
  · have hkey : ' ' ∉ key.toList := h.key_word key (NameMap.mem_names.mpr ⟨flag, hflag⟩)
    have hsuffix : ' ' ∉ suffix.toList :=
      (spelled_of_mem_suffixes htells.mem_suffixes).notMem (by decide)
    exact notMem_variableOf (by decide) hkey hsuffix

lemma WellSpelled.settings_oneLine (hplain : Plain registry resolved flags target) :
    ∀ entry ∈ settings flags, OneLine (assignment entry.1 entry.2) := by
  refine forall_mem_settings ?_ (fun partition members hget => ?_)
    fun key suffix value flag hflag htells => ?_
  · have hlist : OneLine "_ALL_RELEASE_FLAGS" := by decide
    exact oneLine_assignment hlist (.toLine hplain.keys)
  · have hpartition : OneLine partition := (h.partition hget).notMem (by decide)
    have hmembers := (partitioned_partitions flags partition members hget).2
    exact oneLine_assignment (notMem_variableOf (by decide) (by decide) hpartition)
      (.toLine fun member hmem => hplain.keys member (hmembers member hmem))
  · have hkey : OneLine key := hplain.keys key (NameMap.mem_names.mpr ⟨flag, hflag⟩)
    have hsuffix : OneLine suffix :=
      (spelled_of_mem_suffixes htells.mem_suffixes).notMem (by decide)
    exact oneLine_assignment (notMem_variableOf (by decide) hkey hsuffix)
      (hplain.tells hflag htells)

end WellSpelled

/-- All settings are marked. -/
lemma marked_settings : ∀ entry ∈ settings flags, Marked entry.1 :=
  forall_mem_settings List.prefix_rfl (fun partition _ _ => marked_variableOf _ partition)
    fun key suffix _ _ _ _ => marked_variableOf key suffix

/-- No line above the list of flags is marked. -/
lemma not_marked_headLines : ∀ line ∈ headLines registry resolved target, ¬ Marked line :=
  forall_mem_headLines (by simp [Marked]) (by simp [Marked]) (by simp [Marked, assignment])
    (by decide) (by simp [Marked])

lemma headLines_ne_heading : ∀ line ∈ headLines registry resolved target, line ≠ heading := by
  simp only [ne_eq, ← String.toList_inj]
  exact forall_mem_headLines (by simp [heading]) (by simp [heading]) (by simp [heading, assignment])
    (by decide) (by simp [heading])

lemma Marked.assignment {name : String} (h : Marked name) (value : String) :
    Marked (assignment name value) := by
  rw [Marked, ReleaseFlags.assignment, String.toList_append, String.toList_append,
    List.append_assoc]
  exact List.IsPrefix.trans h (List.prefix_append _ _)

lemma settings_ne_heading : ∀ line ∈ assignmentLines (settings flags), line ≠ heading := by
  rintro line hline rfl
  obtain ⟨entry, hentry, heq⟩ := List.mem_map.mp hline
  have hmarked := (marked_settings entry hentry).assignment entry.2
  rw [heq] at hmarked
  exact absurd hmarked (by decide)

/-- No line of a value is marked, since keys start with a capital letter. -/
lemma WellSpelled.not_marked_valuesOf (h : WellSpelled flags) :
    ∀ line ∈ assignmentLines (valuesOf flags), ¬ Marked line := by
  intro line hline hmarked
  obtain ⟨value, hvalue, rfl⟩ := List.mem_map.mp hline
  obtain ⟨entry, hentry, rfl⟩ := List.mem_map.mp hvalue
  obtain ⟨first, rest, heq, hupper⟩ := h.key_starts entry.1 (List.mem_map_of_mem hentry)
  rw [Marked, assignment, String.toList_append, String.toList_append, heq] at hmarked
  obtain rfl : '_' = first := (List.cons_prefix_cons.mp hmarked).1
  exact absurd hupper (by decide)

end Makefile

end ReleaseFlags
