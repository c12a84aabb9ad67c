import ReleaseFlags.Proofs.Resolution.Hidden
import ReleaseFlags.Proofs.Words

/-!
# The line of the value sets

While a config is resolved, the flag of the value sets holds a line of words.  Merging a config
appends the value sets of that config, and a contribution appends its own ones; but a value for the
flag replaces the whole line, and so does a merged config in which the flag is redacted.  So the
words are those that a list of changes leads to (`Flags.Lines`, `lineAfter`), and a word is in the
line at the end if none of the changes behind it replaces the line (`mem_lineAfter_iff`).  Freezing
drops the repeated words.
-/

namespace ReleaseFlags

variable {registry : Registry} {config parent : ReleaseConfig} {resolved : Resolved}
  {flags flags' : Flags} {working working' : Working} {words : List String}

/-! ### Changes of a line -/

/-- Words that are put at the end of a line, or in the place of the whole line. -/
structure LineChange where
  words : List String
  replaces : Bool

/-- The words of a line after a change. -/
def LineChange.apply (words : List String) (change : LineChange) : List String :=
  if change.replaces then change.words else words ++ change.words

/-- The words of a line after several changes. -/
def lineAfter (words : List String) (changes : List LineChange) : List String :=
  changes.foldl LineChange.apply words

lemma lineAfter_append (words : List String) (changes more : List LineChange) :
    lineAfter words (changes ++ more) = lineAfter (lineAfter words changes) more :=
  List.foldl_append

lemma LineChange.mem_apply_iff {change : LineChange} {word : String} :
    word ∈ change.apply words ↔ word ∈ words ∧ change.replaces = false ∨ word ∈ change.words := by
  cases hreplaces : change.replaces <;> simp [LineChange.apply, hreplaces]

/-- A word stays until the line is replaced. -/
lemma mem_lineAfter_iff {word : String} {changes : List LineChange} :
    word ∈ lineAfter words changes ↔
      (word ∈ words ∧ ∀ change ∈ changes, change.replaces = false) ∨
        ∃ before change behind, changes = before ++ change :: behind ∧ word ∈ change.words ∧
          ∀ later ∈ behind, later.replaces = false := by
  induction changes generalizing words with
  | nil => simp [lineAfter]
  | cons first rest ih =>
    have hstep : lineAfter words (first :: rest) = lineAfter (first.apply words) rest := rfl
    rw [hstep, ih, LineChange.mem_apply_iff]
    constructor
    · rintro (⟨⟨hword, hfirst⟩ | hword, hrest⟩ | ⟨before, change, behind, rfl, hword, hbehind⟩)
      · exact .inl ⟨hword, List.forall_mem_cons.mpr ⟨hfirst, hrest⟩⟩
      · exact .inr ⟨[], first, rest, rfl, hword, hrest⟩
      · exact .inr ⟨first :: before, change, behind, rfl, hword, hbehind⟩
    · rintro (⟨hword, hall⟩ | ⟨before, change, behind, heq, hword, hbehind⟩)
      · obtain ⟨hfirst, hrest⟩ := List.forall_mem_cons.mp hall
        exact .inl ⟨.inl ⟨hword, hfirst⟩, hrest⟩
      · -- the change is the first one or one of the rest
        rcases List.cons_eq_append_iff.mp heq with ⟨rfl, hcons⟩ | ⟨before, rfl, rfl⟩
        · obtain ⟨rfl, rfl⟩ := List.cons.inj hcons
          exact .inl ⟨.inr hword, hbehind⟩
        · exact .inr ⟨before, change, behind, rfl, hword, hbehind⟩

/-- Changes that do not replace the line add up. -/
lemma lineAfter_of_forall {changes : List LineChange}
    (h : ∀ change ∈ changes, change.replaces = false) :
    lineAfter words changes = words ++ changes.flatMap LineChange.words := by
  induction changes generalizing words with
  | nil => exact (List.append_nil _).symm
  | cons first rest ih =>
    obtain ⟨hfirst, hrest⟩ := List.forall_mem_cons.mp h
    have hstep : first.apply words = words ++ first.words := by simp [LineChange.apply, hfirst]
    rw [List.flatMap_cons, ← List.append_assoc, ← hstep]
    exact ih hrest

/-- The change that merging the resolved config is. -/
def Resolved.lineChange (resolved : Resolved) : LineChange :=
  ⟨resolved.report.aconfigValueSets, resolved.flags.hides KnownFlag.aconfigValueSets⟩

/-- The change that a value is: none if it is for another flag. -/
def Assignment.lineChanges (value : Assignment) : List LineChange :=
  if value.name = KnownFlag.aconfigValueSets then
    [⟨Words.ofLine value.point.value.textContent, true⟩]
  else []

/-- The changes that a contribution is: its value sets, then its values. -/
def Contribution.lineChanges (c : Contribution) : List LineChange :=
  ⟨c.file.aconfigValueSets.flatMap Words.ofLine, false⟩ :: c.values.flatMap Assignment.lineChanges

/-- Contributions without a value for the flag only add their value sets. -/
lemma ReleaseConfig.lineChanges_of_forall
    (hother : ∀ value ∈ config.ownValues, value.name ≠ KnownFlag.aconfigValueSets) :
    config.contributions.flatMap Contribution.lineChanges =
      config.contributions.map fun c => ⟨c.file.aconfigValueSets.flatMap Words.ofLine, false⟩ := by
  have hc : ∀ c ∈ config.contributions, c.lineChanges =
      [⟨c.file.aconfigValueSets.flatMap Words.ofLine, false⟩] := by
    intro c hc
    have hvalues : c.values.flatMap Assignment.lineChanges = [] :=
      List.flatMap_eq_nil_iff.mpr fun value hvalue =>
        if_neg (hother value (List.mem_flatMap.mpr ⟨c, hc, hvalue⟩))
    rw [Contribution.lineChanges, hvalues]
  rw [List.flatMap_def, List.map_congr_left hc, ← List.flatMap_def, List.map_eq_flatMap]

/-! ### The line of the flag -/

/-- The flag of the value sets holds a line of these words. -/
def Flags.Lines (words : List String) (flags : Flags) : Prop :=
  ∃ flag, flags.get? KnownFlag.aconfigValueSets = some flag ∧
    Words.ofLine flag.value.textContent = words

namespace Flags.Lines

lemma of_get? (h : flags.Lines words)
    (hget : flags'.get? KnownFlag.aconfigValueSets = flags.get? KnownFlag.aconfigValueSets) :
    flags'.Lines words := by
  obtain ⟨flag, hflag, hwords⟩ := h
  exact ⟨flag, hget.trans hflag, hwords⟩

/-- In a fold every step of which makes changes, all these changes are made. -/
lemma of_foldlM {α : Type} {step : Flags → α → Except Error Flags} {changes : α → List LineChange}
    {items : List α}
    (hstep : ∀ words flags a flags', step flags a = .ok flags' → flags.Lines words →
      flags'.Lines (lineAfter words (changes a)))
    (hfold : items.foldlM step flags = .ok flags') (h : flags.Lines words) :
    flags'.Lines (lineAfter words (items.flatMap changes)) := by
  refine foldlM_induction
    (P := fun done state => state.Lines (lineAfter words (done.flatMap changes)))
    (fun done a state state' _ hok hdone => ?_) hfold h
  rw [List.flatMap_append, List.flatMap_singleton, lineAfter_append]
  exact hstep _ _ a _ hok hdone

end Flags.Lines

/-! ### Merged configs -/

/-- Merging the value sets of a config appends them, behind nothing if they are redacted there. -/
lemma FlagState.ofLine_inherit {flag inherited : FlagState}
    (hname : inherited.name = KnownFlag.aconfigValueSets) :
    Words.ofLine (flag.inherit inherited).value.textContent =
      LineChange.apply (Words.ofLine flag.value.textContent)
        ⟨Words.ofLine inherited.value.textContent, inherited.redacted⟩ := by
  have hstart : Words.ofLine (if inherited.redacted then flag.redact else flag).value.textContent =
      if inherited.redacted then [] else Words.ofLine flag.value.textContent := by
    split <;> rfl
  have happend : Words.ofLine (flag.inherit inherited).value.textContent =
      Words.ofLine (if inherited.redacted then flag.redact else flag).value.textContent ++
        Words.ofLine inherited.value.textContent := by
    simp only [inherit, if_pos hname]
    generalize (if inherited.redacted = true then flag.redact else flag) = start
    split
    · next hempty => rw [hempty, Words.ofLine_empty, List.append_nil]
    · exact Words.ofLine_append _ _
  rw [happend, hstart, LineChange.apply]
  split
  · exact List.nil_append _
  · rfl

/-- The flags of the resolved config are stored under their names, and the line of the value sets is
the reported one. -/
structure Resolved.HoldsLine (resolved : Resolved) : Prop where
  named : resolved.flags.Named
  lines : resolved.flags.Lines resolved.report.aconfigValueSets

namespace Flags.Lines

lemma of_inherit (h : working.flags.Lines words) (hinherited : resolved.HoldsLine)
    (hinherit : working.inherit config parent resolved = .ok working') :
    working'.flags.Lines (resolved.lineChange.apply words) := by
  obtain ⟨flag, hflag, rfl⟩ := h
  obtain ⟨inherited, hget, hwords⟩ := hinherited.lines
  have hmerged : working'.flags.get? KnownFlag.aconfigValueSets = Option.map _ _ :=
    get?_of_inherit hinherited.named hinherit
  rw [hflag, hget, Option.map_some] at hmerged
  refine ⟨_, hmerged, ?_⟩
  rw [Resolved.lineChange, Flags.hides_of_get? hget, ← hwords]
  exact FlagState.ofLine_inherit (hinherited.named _ _ hget)

lemma of_inheritAll {inherited : List (ReleaseConfig × Resolved)} (h : working.flags.Lines words)
    (hinherited : ∀ e ∈ inherited, e.2.HoldsLine)
    (hall : working.inheritAll config inherited = .ok working') :
    working'.flags.Lines (lineAfter words (inherited.map fun e => e.2.lineChange)) := by
  refine foldlM_induction (P := fun done state => state.flags.Lines
    (lineAfter words (done.map fun e => e.2.lineChange)))
    (fun done e state state' he hok hdone => ?_) hall h
  rw [List.map_append, lineAfter_append]
  exact hdone.of_inherit (hinherited e he) hok

/-! ### Own settings -/

lemma of_addValueSets (h : flags.Lines words) (c : Contribution) :
    (c.addValueSets flags).Lines (words ++ c.file.aconfigValueSets.flatMap Words.ofLine) := by
  obtain ⟨flag, hflag, rfl⟩ := h
  refine ⟨_, (NameMap.get?_modify_self _ _ _).trans (congrArg (Option.map _) hflag), ?_⟩
  rw [← Words.ofLine_toLine]
  exact Words.ofLine_append _ _

/-- A value for the flag takes the place of all that was collected. -/
lemma of_applyValue {c : Contribution} {value : Assignment} (h : flags.Lines words)
    (hvalue : c.applyValue registry config flags value = .ok flags') :
    flags'.Lines (lineAfter words value.lineChanges) := by
  obtain ⟨flag, flag', -, -, hassign, rfl⟩ := applyValue_eq_ok hvalue
  obtain ⟨-, -, rfl⟩ := FlagState.assign_eq_ok.mp hassign
  by_cases hname : value.name = KnownFlag.aconfigValueSets
  · rw [Assignment.lineChanges, if_pos hname, hname]
    exact ⟨_, NameMap.get?_insert_self _ _ _, rfl⟩
  · rw [Assignment.lineChanges, if_neg hname]
    exact h.of_get? (NameMap.get?_insert_of_ne _ _ (Ne.symm hname))

lemma of_apply {c : Contribution} (h : flags.Lines words)
    (happly : c.apply registry config flags = .ok flags') :
    flags'.Lines (lineAfter words c.lineChanges) :=
  .of_foldlM (fun _ _ _ _ hok hlines => hlines.of_applyValue hok) (apply_eq_ok happly).2
    (h.of_addValueSets c)

lemma of_applyOwn (h : working.flags.Lines words)
    (hown : registry.applyOwn config working = .ok working') :
    working'.flags.Lines
      (lineAfter words (config.contributions.flatMap Contribution.lineChanges)) := by
  obtain ⟨flags, hversion, hcontributions, -⟩ := applyOwn_eq_ok hown
  exact .of_foldlM (fun _ _ _ _ hok hlines => hlines.of_apply hok) hcontributions
    (h.of_get? (get?_of_setPlatformVersion (by decide) hversion))

/-! ### Freezing -/

/-- Freezing drops the words that occurred before; the flag holds those that are left. -/
lemma freeze {inherits : List String} (h : working.flags.Lines words)
    (hfreeze : working.freeze registry config inherits = .ok resolved) :
    resolved.report.aconfigValueSets = words.eraseDups ∧
      resolved.flags.Lines resolved.report.aconfigValueSets ∧
      ∃ flag, resolved.flags.get? KnownFlag.aconfigValueSets = some flag ∧
        flag.value = .text (Words.toLine resolved.report.aconfigValueSets) := by
  obtain ⟨flag, hflag, rfl⟩ := h
  obtain ⟨hflags, -, -, hsets, -⟩ := freeze_eq_ok hfreeze
  simp only [Flags.valueSets, hflag] at hsets
  have hget : resolved.flags.get? KnownFlag.aconfigValueSets = some flag.settleValueSets := by
    rw [hflags, settleValueSets, NameMap.get?_modify_self, hflag, Option.map_some]
  have hvalue : flag.settleValueSets.value =
      .text (Words.toLine resolved.report.aconfigValueSets) := by
    rw [hsets]
    rfl
  refine ⟨?_, ⟨_, hget, ?_⟩, _, hget, hvalue⟩
  · exact hsets.trans (distinct_eq_eraseDups _)
  · rw [hvalue, hsets]
    exact ofLine_toLine_valueSetsOfLine _

end Flags.Lines

/-! ### All stages -/

namespace Registry

/-- The flag of the value sets of a resolved config holds the value sets that are reported. -/
lemma Stages.lines {f : ReleaseConfig → Except Error Resolved}
    (s : registry.Stages f config resolved)
    (hdeclared : registry.flags.get? KnownFlag.aconfigValueSets = some valueSetsFlag) :
    resolved.flags.Lines resolved.report.aconfigValueSets := by
  have hbecomes := (becomes_of_inheritAll s.merged_eq).trans <|
    (becomes_of_applyOwn s.own_eq).trans (becomes_of_inheritAll s.final_eq)
  obtain ⟨flag, hflag, -⟩ := hbecomes.exists_after hdeclared
  have hlines : s.final.flags.Lines (Words.ofLine flag.value.textContent) := ⟨flag, hflag, rfl⟩
  exact (hlines.freeze s.resolved_eq).2.1

/-- What a resolved config merges holds the line of its value sets. -/
lemma Reached.holdsLine_of_mem (h : registry.Reached)
    (s : registry.Stages registry.outcomeOf config resolved) {e : ReleaseConfig × Resolved}
    (he : e ∈ s.inherited) : e.2.HoldsLine := by
  obtain ⟨t⟩ := h.coherent.stages (s.has_of_mem h.coherent.named he) (s.ok_of_mem he)
  exact ⟨h.named_of_mem s he, t.lines h.value_sets⟩

/-- The changes of the line of the value sets while a config goes through its stages. -/
def Stages.lineChanges {f : ReleaseConfig → Except Error Resolved}
    (s : registry.Stages f config resolved) : List LineChange :=
  (s.parents.map fun e => e.2.lineChange) ++
    config.contributions.flatMap Contribution.lineChanges ++
    s.applied.toList.map fun e => e.2.lineChange

/-- The value sets of a resolved config are what is left after all changes of the line. -/
theorem Reached.value_sets_eq (h : registry.Reached)
    (s : registry.Stages registry.outcomeOf config resolved) :
    resolved.report.aconfigValueSets = (lineAfter [] s.lineChanges).eraseDups ∧
      ∃ flag, resolved.flags.get? KnownFlag.aconfigValueSets = some flag ∧
        flag.value = .text (Words.toLine resolved.report.aconfigValueSets) := by
  have hstart : registry.flags.Lines [] := ⟨valueSetsFlag, h.value_sets, rfl⟩
  have hmerged := hstart.of_inheritAll
    (fun e he => h.holdsLine_of_mem s (List.mem_append_left _ he)) s.merged_eq
  have hfinal := (hmerged.of_applyOwn s.own_eq).of_inheritAll
    (fun e he => h.holdsLine_of_mem s (List.mem_append_right _ he)) s.final_eq
  obtain ⟨hsets, -, hflag⟩ := hfinal.freeze s.resolved_eq
  refine ⟨?_, hflag⟩
  rw [hsets, Stages.lineChanges, lineAfter_append, lineAfter_append]

end Registry

end ReleaseFlags
