import ReleaseFlags.Proofs.Flag

/-!
# The history of a flag

A flag is declared and then updated any number of times, by plain values, by redactions and by
values of other flags; an update that fails is passed over.  `update` is one update as changes of a
flag in place, one after the other, so that a failing one could stop half-way; it agrees with
`assign`, and hence never does (`update_run`).  What every update keeps (`Records.update`) holds of
every history: value, traces and redaction stay in step, whatever the updates are
(`history_of_declare`).
-/

namespace ReleaseFlags

namespace FlagState

variable {flag start : FlagState} {a : Assignment} {calls done : List Assignment}

/-! ### Updates in place -/

/-- An assignment, as changes of the flag in place. -/
def update (a : Assignment) : ExceptT FlagError (StateM FlagState) PUnit := do
  let flag ← get
  if a.name ≠ flag.name then throw (.nameMismatch flag.name a.name a.path)
  else if a.redacted then
    modify redact
    modify (trace · ⟨a.path, .obsolete⟩)
  else if flag.redacted then throw (.redacted flag.name a.path)
  else
    modify (trace · ⟨a.path, a.value⟩)
    modify fun flag => { flag with value := a.value }

/-- An update does what the assignment does, and nothing at all where that one fails. -/
lemma update_run (a : Assignment) (flag : FlagState) : (update a).run flag =
    match flag.assign a with
    | .ok flag' => (.ok ⟨⟩, flag')
    | .error e => (.error e, flag) := by
  simp only [update, run_get_bind, assign]
  split
  · rfl
  · split
    · rfl
    · split
      · rfl
      · rfl

/-- The flag after several updates, those that fail included. -/
def after (flag : FlagState) (calls : List Assignment) : FlagState :=
  calls.foldl (fun flag a => ((update a).run flag).2) flag

/-- The updates that succeed when all are made, one after the other. -/
def accepted (flag : FlagState) : List Assignment → List Assignment
  | [] => []
  | a :: rest =>
    match (update a).run flag with
    | (.ok _, flag') => a :: flag'.accepted rest
    | (.error _, flag') => flag'.accepted rest

lemma after_append (flag : FlagState) (calls more : List Assignment) :
    flag.after (calls ++ more) = (flag.after calls).after more := by
  simp only [after, List.foldl_append]

/-- An update is refused if it is one of another flag, or shows the value of a redacted flag. -/
def Refuses (flag : FlagState) (a : Assignment) : Prop :=
  a.name ≠ flag.name ∨ flag.redacted = true ∧ a.redacted = false

/-- An update that is refused fails and changes nothing. -/
lemma update_of_refuses (h : flag.Refuses a) : ∃ e, (update a).run flag = (.error e, flag) := by
  rw [update_run]
  cases hassign : flag.assign a with
  | error e => exact ⟨e, rfl⟩
  | ok flag' =>
    obtain ⟨hname, hredacted, -⟩ := assign_eq_ok.mp hassign
    rcases h with hother | ⟨hflag, hplain⟩
    · exact absurd hname hother
    · rw [hredacted hflag] at hplain
      cases hplain

/-- A redacted flag accepts redactions only. -/
lemma redacted_of_not_refuses (h : ¬ flag.Refuses a) (hflag : flag.redacted = true) :
    a.redacted = true := by
  cases hredacted : a.redacted with
  | true => rfl
  | false => exact absurd (.inr ⟨hflag, hredacted⟩) h

/-- Every other update succeeds. -/
lemma update_of_not_refuses (h : ¬ flag.Refuses a) : (update a).run flag =
    (.ok ⟨⟩, { flag with
      value := a.point.value
      traces := flag.traces ++ [a.point]
      redacted := flag.redacted || a.redacted }) := by
  have hname : a.name = flag.name := Decidable.byContradiction fun hother => h (.inl hother)
  rw [update_run, assign_eq_ok.mpr ⟨hname, redacted_of_not_refuses h, rfl⟩]

/-! ### What updates keep -/

/-- The flag is what the successful updates have made of the start: the traces are those of the
start and one of each update, and value and redaction are those of the last trace and of all
updates. -/
structure Records (start flag : FlagState) (done : List Assignment) : Prop where
  declaration : flag.declaration = start.declaration
  declarationIndex : flag.declarationIndex = start.declarationIndex
  traces : flag.traces = start.traces ++ done.map Assignment.point
  value : flag.traces.getLast?.map Tracepoint.value = some flag.value
  redacted : flag.redacted = (start.redacted || done.any Assignment.redacted)
  obsolete : flag.redacted = true → flag.value = .obsolete

/-- One more update keeps the record, if it succeeds with one more entry. -/
lemma Records.update (h : Records start flag done) (a : Assignment) :
    (∃ e, (update a).run flag = (.error e, flag)) ∨
      ∃ flag', (update a).run flag = (.ok ⟨⟩, flag') ∧ Records start flag' (done ++ [a]) := by
  by_cases hrefuses : flag.Refuses a
  · exact .inl (update_of_refuses hrefuses)
  · refine .inr ⟨_, update_of_not_refuses hrefuses, ?_⟩
    exact {
      declaration := h.declaration
      declarationIndex := h.declarationIndex
      traces := by simp [h.traces]
      value := by simp
      redacted := by simp [h.redacted, Bool.or_assoc]
      obsolete := fun hredacted => by
        -- if the flag was redacted before, this update is a redaction as well
        have hupdate : a.redacted = true :=
          (Bool.or_eq_true_iff.mp hredacted).elim (redacted_of_not_refuses hrefuses) id
        simp [Assignment.point, hupdate] }

/-- Any number of updates keeps the record, with one more entry of each that succeeds. -/
lemma Records.after (h : Records start flag done) (calls : List Assignment) :
    Records start (flag.after calls) (done ++ flag.accepted calls) := by
  induction calls generalizing flag done with
  | nil => simpa [FlagState.after, accepted] using h
  | cons a rest ih =>
    rcases h.update a with ⟨e, hrun⟩ | ⟨flag', hrun, hnext⟩
    · have hafter : flag.after (a :: rest) = flag.after rest := by
        simp only [FlagState.after, List.foldl_cons, hrun]
      simp only [hafter, accepted, hrun]
      exact ih h
    · have hafter : flag.after (a :: rest) = flag'.after rest := by
        simp only [FlagState.after, List.foldl_cons, hrun]
      simp only [hafter, accepted, hrun]
      simpa using ih hnext

/-- A flag that has just been declared is its own record. -/
lemma records_declare (declaration : FlagDeclaration) (index : Option Nat) (source : String) :
    Records (declare declaration index source) (declare declaration index source) [] where
  declaration := rfl
  declarationIndex := rfl
  traces := (List.append_nil _).symm
  value := rfl
  redacted := rfl
  obsolete := nofun

lemma reportWithoutTraces_eq_none : flag.reportWithoutTraces = none ↔ flag.redacted = true := by
  simp [reportWithoutTraces]

/-- After any updates of a flag that was declared, its traces are the one of the declaration and one
of each update that succeeded, its value is that of the last trace, and it is redacted, without a
value and left out of reports, if one of these updates redacted it.  Further updates append to the
traces and keep it redacted; each one fails exactly if it is for another flag or gives a plain value
to a redacted flag, and then it changes nothing. -/
theorem history_of_declare (declaration : FlagDeclaration) (index : Option Nat) (source : String)
    (calls : List Assignment) :
    let start := declare declaration index source
    let flag := start.after calls
    flag.declaration = declaration ∧ flag.declarationIndex = index ∧
      flag.traces = ⟨source, declaration.value⟩ :: (start.accepted calls).map Assignment.point ∧
      flag.traces.getLast?.map Tracepoint.value = some flag.value ∧
      flag.redacted = (start.accepted calls).any Assignment.redacted ∧
      (flag.redacted = true → flag.value = .obsolete) ∧
      (flag.reportWithoutTraces = none ↔ flag.redacted = true) ∧
      (∀ more,
        (start.after (calls ++ more)).traces =
          flag.traces ++ (flag.accepted more).map Assignment.point ∧
        (flag.redacted = true → (start.after (calls ++ more)).redacted = true)) ∧
      ∀ a,
        ((∃ e, ((update a).run flag).1 = .error e) ↔
          a.name ≠ declaration.name ∨ flag.redacted = true ∧ a.redacted = false) ∧
        (∀ e, ((update a).run flag).1 = .error e → ((update a).run flag).2 = flag) ∧
        (((update a).run flag).1 = .ok ⟨⟩ →
          ((update a).run flag).2.traces = flag.traces ++ [a.point]) := by
  intro start flag
  have hrecords : Records start flag (start.accepted calls) :=
    (records_declare declaration index source).after calls
  have hself : Records flag flag [] :=
    { hrecords with
      declaration := rfl
      declarationIndex := rfl
      traces := (List.append_nil _).symm
      redacted := (Bool.or_false _).symm }
  refine ⟨hrecords.declaration, hrecords.declarationIndex, hrecords.traces, hrecords.value,
    hrecords.redacted.trans (Bool.false_or _), hrecords.obsolete, reportWithoutTraces_eq_none,
    fun more => ?_, fun a => ?_⟩
  · have hmore := hself.after more
    rw [after_append]
    exact ⟨hmore.traces, fun hredacted => by rw [hmore.redacted, hredacted, Bool.true_or]⟩
  · have hname : flag.name = declaration.name := congrArg FlagDeclaration.name hrecords.declaration
    rw [← hname]
    by_cases hrefuses : flag.Refuses a
    · obtain ⟨e, hrun⟩ := update_of_refuses hrefuses
      rw [hrun]
      exact ⟨iff_of_true ⟨e, rfl⟩ hrefuses, fun _ _ => rfl, nofun⟩
    · rw [update_of_not_refuses hrefuses]
      exact ⟨iff_of_false nofun hrefuses, nofun, fun _ => rfl⟩

/-- A redacted flag refuses a value, and may be redacted once more. -/
example : (declare { (default : FlagDeclaration) with name := "F" } none "f").accepted
    [.redaction "r" "F", .plain "v" "F" (.bool true), .redaction "s" "F"] =
      [.redaction "r" "F", .redaction "s" "F"] := by
  decide +kernel

end FlagState

end ReleaseFlags
