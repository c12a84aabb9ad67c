import ReleaseFlags.Proofs.Resolution.Merges

/-!
# Which flags are redacted

Merging a config redacts the flags that are redacted there, and an own value redacts its flag if
it says so.  Nothing else redacts a flag, and nothing undoes it.  So a flag is redacted in a
resolved config exactly if an own value redacts it in one of the configs that are merged
(`hides_iff`).
-/

namespace ReleaseFlags

variable {registry : Registry} {config parent : ReleaseConfig} {resolved : Resolved}
  {flags flags' : Flags} {flag : FlagState} {working working' : Working} {name : String}

namespace Flags

/-- The flag of the name is redacted. -/
def hides (flags : Flags) (name : String) : Bool := (flags.get? name).any FlagState.redacted

lemma hides_eq_true_iff :
    flags.hides name = true ↔ ∃ flag, flags.get? name = some flag ∧ flag.redacted = true :=
  Option.any_eq_true _ _

lemma hides_of_get? (hget : flags.get? name = some flag) : flags.hides name = flag.redacted := by
  rw [hides, hget, Option.any_some]

/-- A redacted flag stays redacted. -/
lemma Becomes.hides (h : flags.Becomes flags') (hhides : flags.hides name = true) :
    flags'.hides name = true := by
  obtain ⟨flag, hget, hredacted⟩ := hides_eq_true_iff.mp hhides
  obtain ⟨later, hlater, hbecomes⟩ := h.exists_after hget
  exact hides_eq_true_iff.mpr ⟨later, hlater, hbecomes.redacted hredacted⟩

lemma hides_modify {key : String} {f : FlagState → FlagState}
    (h : ∀ flag, (f flag).redacted = flag.redacted) :
    hides (NameMap.modify flags key f) name = flags.hides name := by
  by_cases heq : name = key
  · rw [hides, hides, heq, NameMap.get?_modify_self]
    cases flags.get? key with
    | none => rfl
    | some flag => exact h flag
  · rw [hides, hides, NameMap.get?_modify_of_ne _ _ heq]

/-- The assignment of a value redacts the flag of its name if it says so, and no other flag. -/
lemma hides_of_assign {a : Assignment} {flag' : FlagState}
    (hget : flags.get? a.name = some flag) (hassign : flag.assign a = .ok flag') :
    hides (NameMap.insert flags a.name flag') name =
      (flags.hides name || (a.name = name && a.redacted)) := by
  obtain ⟨-, -, rfl⟩ := FlagState.assign_eq_ok.mp hassign
  by_cases heq : name = a.name
  · subst heq
    simp [hides_of_get? hget, hides_of_get? (NameMap.get?_insert_self _ _ _)]
  · rw [hides, NameMap.get?_insert_of_ne _ _ heq, ← hides]
    simp [Ne.symm heq]

/-- What each step of a fold may redact, the fold may. -/
lemma hides_of_foldlM {α : Type} {step : Flags → α → Except Error Flags} {redacts : α → Bool}
    {items : List α}
    (hstep : ∀ flags a flags', step flags a = .ok flags' →
      flags'.hides name = (flags.hides name || redacts a))
    (h : items.foldlM step flags = .ok flags') :
    flags'.hides name = (flags.hides name || items.any redacts) := by
  refine foldlM_induction
    (P := fun done state => state.hides name = (flags.hides name || done.any redacts))
    (fun done a s s' _ hok hdone => ?_) h (by simp)
  rw [hstep s a s' hok, hdone, List.any_append, Bool.or_assoc]
  simp

end Flags

/-! ### Merged configs -/

lemma FlagState.redacted_mergeAll (flag : FlagState) (configs : List Resolved) :
    (flag.mergeAll name configs).redacted =
      (flag.redacted || configs.any fun resolved => resolved.flags.hides name) := by
  induction configs generalizing flag with
  | nil => simp [mergeAll]
  | cons first rest ih =>
    have hfirst : (flag.merge (first.flags.get? name)).redacted =
        (flag.redacted || first.flags.hides name) := by
      rw [Flags.hides]
      cases first.flags.get? name with
      | none => simp [merge]
      | some inherited => exact inherit_redacted flag inherited
    have hrest := ih (flag.merge (first.flags.get? name))
    refine hrest.trans ?_
    rw [hfirst, List.any_cons, Bool.or_assoc]

lemma hides_of_inheritAll {inherited : List (ReleaseConfig × Resolved)}
    (hnamed : ∀ e ∈ inherited, e.2.flags.Named) (hget : working.flags.get? name = some flag)
    (h : working.inheritAll config inherited = .ok working') :
    working'.flags.hides name =
      (working.flags.hides name || inherited.any fun e => e.2.flags.hides name) := by
  have hmerged : working'.flags.get? name = (working.flags.get? name).map _ :=
    get?_of_inheritAll hnamed h
  rw [hget, Option.map_some] at hmerged
  rw [Flags.hides_of_get? hmerged, Flags.hides_of_get? hget, FlagState.redacted_mergeAll,
    List.any_map]
  rfl

/-! ### Own settings -/

namespace ReleaseConfig

/-- One of the own values redacts the flag of the name. -/
def redacts (config : ReleaseConfig) (name : String) : Bool :=
  config.ownValues.any fun value => value.name = name && value.redacted

lemma redacts_eq_true_iff : config.redacts name = true ↔
    ∃ value ∈ config.ownValues, value.name = name ∧ value.redacted = true := by
  simp [redacts]

end ReleaseConfig

lemma hides_of_setPlatformVersion (h : config.setPlatformVersion flags = .ok flags') :
    flags'.hides name = flags.hides name := by
  rcases setPlatformVersion_eq_ok h with ⟨rfl, -⟩ | ⟨flag, flag', hget, -, hassign, rfl⟩
  · rfl
  · -- the platform version is a plain value
    refine (Flags.hides_of_assign (a := config.versionAssignment) hget hassign).trans ?_
    simp [ReleaseConfig.versionAssignment, Assignment.plain]

lemma hides_of_applyValue {c : Contribution} {value : Assignment}
    (h : c.applyValue registry config flags value = .ok flags') :
    flags'.hides name = (flags.hides name || (value.name = name && value.redacted)) := by
  obtain ⟨flag, flag', hget, -, hassign, rfl⟩ := applyValue_eq_ok h
  exact Flags.hides_of_assign hget hassign

lemma hides_addValueSets (c : Contribution) (flags : Flags) :
    (c.addValueSets flags).hides name = flags.hides name :=
  Flags.hides_modify fun _ => rfl

lemma hides_of_apply {c : Contribution} (h : c.apply registry config flags = .ok flags') :
    flags'.hides name =
      (flags.hides name || c.values.any fun value => value.name = name && value.redacted) := by
  have hvalues : flags'.hides name = ((c.addValueSets flags).hides name || _) :=
    Flags.hides_of_foldlM (fun _ _ _ hvalue => hides_of_applyValue hvalue) (apply_eq_ok h).2
  rw [hvalues, hides_addValueSets]

lemma hides_of_applyOwn (h : registry.applyOwn config working = .ok working') :
    working'.flags.hides name = (working.flags.hides name || config.redacts name) := by
  obtain ⟨flags, hversion, hown, -⟩ := applyOwn_eq_ok h
  have hcontributions : working'.flags.hides name = (flags.hides name || _) :=
    Flags.hides_of_foldlM (fun _ _ _ hc => hides_of_apply hc) hown
  rw [hcontributions, hides_of_setPlatformVersion hversion, ReleaseConfig.redacts,
    ReleaseConfig.ownValues, List.any_flatMap]

/-! ### All stages -/

namespace Registry

open Relation

/-- What redacts a flag in a resolved config. -/
lemma Stages.hides_eq {f : ReleaseConfig → Except Error Resolved}
    (s : registry.Stages f config resolved) (hnamed : ∀ e ∈ s.inherited, e.2.flags.Named)
    {base : FlagState} (hbase : registry.flags.get? name = some base)
    (hplain : base.redacted = false) :
    resolved.flags.hides name =
      (config.redacts name || s.inherited.any fun e => e.2.flags.hides name) := by
  have hmerged := hides_of_inheritAll (fun e he => hnamed e (List.mem_append_left _ he)) hbase
    s.merged_eq
  rw [Flags.hides_of_get? hbase, hplain, Bool.false_or] at hmerged
  have hown := (hides_of_applyOwn s.own_eq).trans (by rw [hmerged])
  obtain ⟨before, hbefore, -⟩ :=
    ((becomes_of_inheritAll s.merged_eq).trans (becomes_of_applyOwn s.own_eq)).exists_after hbase
  have hfinal := hides_of_inheritAll (fun e he => hnamed e (List.mem_append_right _ he)) hbefore
    s.final_eq
  have hfrozen : resolved.flags.hides name = s.final.flags.hides name := by
    rw [(freeze_eq_ok s.resolved_eq).1]
    exact Flags.hides_modify fun _ => rfl
  rw [hfrozen, hfinal, hown, inherited, List.any_append]
  ac_rfl

/-- A flag is redacted in a resolved config exactly if an own value redacts it in the config, or
in one that is merged, directly or through others. -/
theorem Reached.hides_iff (h : registry.Reached) (hc : registry.Has config)
    (hr : registry.outcomeOf config = .ok resolved) {base : FlagState}
    (hbase : registry.flags.get? name = some base) :
    resolved.flags.hides name = true ↔
      ∃ other, ReflTransGen registry.Merges config other ∧ other.redacts name = true := by
  refine h.coherent.exists_merges_iff (P := fun resolved => resolved.flags.hides name = true)
    (fun config resolved hc s => ?_) hc hr
  rw [s.hides_eq (fun e => h.named_of_mem s) hbase (h.flags_declared hbase).not_redacted,
    Bool.or_eq_true, List.any_eq_true]

end Registry

end ReleaseFlags
