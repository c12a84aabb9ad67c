import ReleaseFlags.Proofs.Outcome
import ReleaseFlags.Resolution.Inherit

/-!
# How the state of a flag changes

A flag changes in two ways: a file assigns to it (`assign_eq_ok`), or the state of the same flag
in an inherited config is merged into it.  Merging a flag other than the value sets appends the
changes of the inherited flag, whatever they were (`inherit_traces`).
-/

namespace ReleaseFlags

/-- The tracepoint that an assignment leaves. -/
def Assignment.point (a : Assignment) : Tracepoint :=
  ⟨a.path, if a.redacted then .obsolete else a.value⟩

namespace FlagState

variable {flag flag' inherited : FlagState} {a : Assignment} {assignments : List Assignment}

/-! ### Assignments -/

/-- What an assignment that succeeds does. -/
lemma assign_eq_ok : flag.assign a = .ok flag' ↔
    a.name = flag.name ∧ (flag.redacted → a.redacted) ∧
      flag' = { flag with
        value := a.point.value
        traces := flag.traces ++ [a.point]
        redacted := flag.redacted || a.redacted } := by
  simp only [assign]
  by_cases hname : a.name = flag.name
  · simp only [hname, ne_eq, not_true_eq_false, if_false, true_and]
    -- a redacted flag refuses plain values only
    cases hredacted : a.redacted with
    | true =>
      simp only [if_true, Except.ok.injEq, implies_true, true_and, Assignment.point, hredacted,
        Bool.or_true, redact, trace]
      exact eq_comm
    | false =>
      cases hflag : flag.redacted with
      | true => simp
      | false =>
        simp only [Bool.false_eq_true, if_false, Except.ok.injEq, Assignment.point, hredacted,
          trace, false_implies, true_and, Bool.or_false]
        exact eq_comm
  · simp [hname]

/-- The traces of several assignments follow each other. -/
lemma traces_of_assignments (h : assignments.foldlM assign flag = .ok flag') :
    flag'.traces = flag.traces ++ assignments.map Assignment.point := by
  refine foldlM_induction
    (P := fun done state => state.traces = flag.traces ++ done.map Assignment.point)
    (fun done a state state' _ hassign hdone => ?_) h (by simp)
  obtain ⟨-, -, rfl⟩ := assign_eq_ok.mp hassign
  simp [hdone]

/-! ### Later states -/

/-- The later state is one that changes of the flag may lead to: its declaration stays, traces
are only appended, and a redacted flag stays redacted. -/
structure Becomes (flag later : FlagState) : Prop where
  declaration : later.declaration = flag.declaration
  declarationIndex : later.declarationIndex = flag.declarationIndex
  traces : flag.traces <+: later.traces
  redacted : flag.redacted = true → later.redacted = true

lemma Becomes.refl (flag : FlagState) : flag.Becomes flag := ⟨rfl, rfl, List.prefix_rfl, id⟩

lemma Becomes.trans {flag'' : FlagState} (h : flag.Becomes flag') (h' : flag'.Becomes flag'') :
    flag.Becomes flag'' where
  declaration := h'.declaration.trans h.declaration
  declarationIndex := h'.declarationIndex.trans h.declarationIndex
  traces := h.traces.trans h'.traces
  redacted := h'.redacted ∘ h.redacted

lemma becomes_of_assign (h : flag.assign a = .ok flag') : flag.Becomes flag' := by
  obtain ⟨-, -, rfl⟩ := assign_eq_ok.mp h
  exact ⟨rfl, rfl, List.prefix_append _ _, fun hredacted => by simp [hredacted]⟩

lemma becomes_inherit (flag inherited : FlagState) : flag.Becomes (flag.inherit inherited) := by
  have hredact : flag.Becomes (if inherited.redacted then flag.redact else flag) := by
    split
    · exact ⟨rfl, rfl, List.prefix_rfl, fun _ => rfl⟩
    · exact .refl flag
  refine hredact.trans ?_
  simp only [inherit]
  generalize (if inherited.redacted = true then flag.redact else flag) = start
  split
  · split
    · exact .refl _
    · exact ⟨rfl, rfl, List.prefix_append _ _, id⟩
  · split
    · exact ⟨rfl, rfl, List.prefix_append _ _, id⟩
    · exact .refl _

/-! ### Inherited states -/

@[simp] lemma inherit_redacted (flag inherited : FlagState) :
    (flag.inherit inherited).redacted = (flag.redacted || inherited.redacted) := by
  cases hredacted : inherited.redacted <;> simp only [inherit, redact, hredacted] <;>
    split <;> split <;> simp

lemma inherit_traces (hname : inherited.name ≠ KnownFlag.aconfigValueSets) :
    (flag.inherit inherited).traces = flag.traces ++ inherited.traces.tail := by
  have hflag : (if inherited.redacted then flag.redact else flag).traces = flag.traces := by
    split <;> rfl
  simp only [inherit, if_neg hname]
  split
  · rw [hflag]
  · next hoverridden =>
    -- nothing was changed since the declaration, so there is nothing to append
    have hlength : inherited.traces.length ≤ 1 := by
      simpa [isOverridden] using hoverridden
    have htail : inherited.traces.tail = [] := by
      apply List.eq_nil_of_length_eq_zero
      rw [List.length_tail]
      omega
    rw [hflag, htail, List.append_nil]

lemma inherit_value (hname : inherited.name ≠ KnownFlag.aconfigValueSets) :
    (flag.inherit inherited).value = if inherited.isOverridden then inherited.value
      else if inherited.redacted then .obsolete else flag.value := by
  simp only [inherit, if_neg hname]
  split
  · rfl
  · split <;> rfl

/-- Merges the state of the flag in an inherited config, if it has one there. -/
def merge (flag : FlagState) : Option FlagState → FlagState
  | none => flag
  | some inherited => flag.inherit inherited

/-- Merges the states of the flag of a name in several configs, one after the other. -/
def mergeAll (flag : FlagState) (name : String) (configs : List Resolved) : FlagState :=
  configs.foldl (fun flag resolved => flag.merge (resolved.flags.get? name)) flag

end FlagState

/-! ### The flags of a config -/

namespace Flags

/-- Every flag is stored under its own name. -/
def Named (flags : Flags) : Prop := ∀ name flag, flags.get? name = some flag → flag.name = name

/-- The flags have the same names and declarations. -/
def SameDeclarations (flags flags' : Flags) : Prop :=
  ∀ name, (flags'.get? name).map FlagState.declaration =
    (flags.get? name).map FlagState.declaration

variable {flags flags' flags'' : Flags} {name : String} {flag flag' : FlagState}

lemma SameDeclarations.exists_get? (h : SameDeclarations flags flags')
    (hget : flags'.get? name = some flag) :
    ∃ old, flags.get? name = some old ∧ old.declaration = flag.declaration := by
  have hname := h name
  rw [hget, Option.map_some] at hname
  exact Option.map_eq_some_iff.mp hname.symm

lemma SameDeclarations.named (h : SameDeclarations flags flags') (hn : flags.Named) :
    flags'.Named := by
  intro name flag hflag
  obtain ⟨old, hold, hdeclaration⟩ := h.exists_get? hflag
  rw [← hn name old hold, FlagState.name, FlagState.name, hdeclaration]

/-- The later flags have the same names, and each flag is one that changes may lead to. -/
def Becomes (flags later : Flags) : Prop :=
  ∀ name, Option.Rel FlagState.Becomes (flags.get? name) (later.get? name)

lemma Becomes.exists_after (h : flags.Becomes flags') (hget : flags.get? name = some flag) :
    ∃ later, flags'.get? name = some later ∧ flag.Becomes later := by
  have hname := h name
  rw [hget] at hname
  cases hlater : flags'.get? name with
  | none =>
    rw [hlater] at hname
    cases hname
  | some later =>
    rw [hlater] at hname
    obtain ⟨hbecomes⟩ := hname
    exact ⟨later, rfl, hbecomes⟩

lemma Becomes.exists_before (h : flags.Becomes flags') (hget : flags'.get? name = some flag') :
    ∃ flag, flags.get? name = some flag ∧ flag.Becomes flag' := by
  cases hflag : flags.get? name with
  | none =>
    have hname := h name
    rw [hflag, hget] at hname
    cases hname
  | some flag =>
    obtain ⟨later, hlater, hbecomes⟩ := h.exists_after hflag
    obtain rfl : later = flag' := Option.some.inj (hlater.symm.trans hget)
    exact ⟨flag, rfl, hbecomes⟩

/-- No flag appears. -/
lemma Becomes.get?_eq_none (h : flags.Becomes flags') (hnone : flags'.get? name = none) :
    flags.get? name = none := by
  cases hget : flags.get? name with
  | none => rfl
  | some flag =>
    obtain ⟨later, hlater, -⟩ := h.exists_after hget
    rw [hnone] at hlater
    cases hlater

lemma Becomes.refl (flags : Flags) : flags.Becomes flags := by
  intro name
  cases flags.get? name with
  | none => exact .none
  | some flag => exact .some (.refl flag)

lemma Becomes.trans (h : flags.Becomes flags') (h' : flags'.Becomes flags'') :
    flags.Becomes flags'' := by
  intro name
  cases hget : flags''.get? name with
  | none =>
    cases hflag : flags.get? name with
    | none => exact .none
    | some flag =>
      obtain ⟨between, hbetween, -⟩ := h.exists_after hflag
      obtain ⟨later, hlater, -⟩ := h'.exists_after hbetween
      rw [hget] at hlater
      cases hlater
  | some later =>
    obtain ⟨between, hbetween, hsecond⟩ := h'.exists_before hget
    obtain ⟨flag, hflag, hfirst⟩ := h.exists_before hbetween
    rw [hflag]
    exact .some (hfirst.trans hsecond)

lemma Becomes.sameDeclarations (h : flags.Becomes flags') : SameDeclarations flags flags' := by
  intro name
  cases hget : flags'.get? name with
  | none =>
    cases hflag : flags.get? name with
    | none => rfl
    | some flag =>
      obtain ⟨later, hlater, -⟩ := h.exists_after hflag
      rw [hget] at hlater
      cases hlater
  | some later =>
    obtain ⟨flag, hflag, hbecomes⟩ := h.exists_before hget
    rw [hflag, Option.map_some, Option.map_some, hbecomes.declaration]

end Flags

/-- The changes of a flag in a resolved config: its traces without the first one, which is that of
the declaration. -/
def Resolved.changes (resolved : Resolved) (name : String) : List Tracepoint :=
  match resolved.flags.get? name with
  | some flag => flag.traces.tail
  | none => []

lemma FlagState.mergeAll_traces {configs : List Resolved} {name : String} (flag : FlagState)
    (hnamed : ∀ resolved ∈ configs, resolved.flags.Named)
    (hname : name ≠ KnownFlag.aconfigValueSets) :
    (flag.mergeAll name configs).traces =
      flag.traces ++ configs.flatMap fun resolved => resolved.changes name := by
  induction configs generalizing flag with
  | nil => simp [mergeAll]
  | cons first rest ih =>
    have hfirst : (flag.merge (first.flags.get? name)).traces =
        flag.traces ++ first.changes name := by
      simp only [Resolved.changes]
      cases hget : first.flags.get? name with
      | none => simp [merge]
      | some inherited =>
        have hinherited := hnamed first List.mem_cons_self name inherited hget
        exact inherit_traces (hinherited ▸ hname)
    have hrest := ih (flag.merge (first.flags.get? name)) fun resolved hmem =>
      hnamed resolved (List.mem_cons_of_mem _ hmem)
    refine hrest.trans ?_
    rw [hfirst, List.flatMap_cons, List.append_assoc]

end ReleaseFlags
