import ReleaseFlags.Proofs.Resolution.Provenance

/-!
# Values agree with traces

The value of a flag in a resolved config is the last one that was traced, also if the flag is
redacted (`value_of_last_trace`).  Assigning and merging keep this law, but only of flags that
were changed if they are redacted: redacting alone leaves no trace.  The flag of the value sets
breaks it while contributions are collected, and settling it restores it.
-/

namespace ReleaseFlags

namespace FlagState

variable {flag flag' inherited : FlagState} {name : String} {configs : List Resolved}

/-! ### Settled states -/

/-- The value of the flag is the last one that was traced, and a flag that is redacted was changed
since its declaration. -/
structure Settled (flag : FlagState) : Prop where
  last_value : flag.traces.getLast?.map Tracepoint.value = some flag.value
  overridden : flag.redacted = true → flag.isOverridden = true

lemma Settled.traces_ne_nil (h : flag.Settled) : flag.traces ≠ [] := by
  intro hnil
  have hlast := h.last_value
  rw [hnil] at hlast
  cases hlast

lemma Declared.settled (h : flag.Declared) : flag.Settled := by
  obtain ⟨source, htraces⟩ := h.traces_eq
  refine ⟨by rw [htraces]; rfl, fun hredacted => ?_⟩
  rw [h.not_redacted] at hredacted
  cases hredacted

lemma Settled.assign {a : Assignment} (h : flag.Settled) (hassign : flag.assign a = .ok flag') :
    flag'.Settled := by
  obtain ⟨-, -, rfl⟩ := assign_eq_ok.mp hassign
  have hpos := List.length_pos_iff.mpr h.traces_ne_nil
  refine ⟨by simp, fun _ => ?_⟩
  simp only [isOverridden, List.length_append, List.length_singleton, decide_eq_true_eq]
  omega

lemma Settled.assignments {assignments : List Assignment} (h : flag.Settled)
    (hassign : assignments.foldlM FlagState.assign flag = .ok flag') : flag'.Settled :=
  foldlM_induction (P := fun _ => Settled) (fun _ _ _ _ _ hok hbefore => hbefore.assign hok)
    hassign h

/-- Merging a settled flag replaces the value if the flag is overridden, and else does nothing. -/
lemma Settled.inherit_value (flag : FlagState) (hinherited : inherited.Settled)
    (hname : inherited.name ≠ KnownFlag.aconfigValueSets) :
    (flag.inherit inherited).value =
      if inherited.isOverridden then inherited.value else flag.value := by
  rw [FlagState.inherit_value hname]
  split
  · rfl
  · next hoverridden =>
    rw [if_neg fun hredacted => hoverridden (hinherited.overridden hredacted)]

lemma Settled.inherit (h : flag.Settled) (hinherited : inherited.Settled)
    (hname : inherited.name ≠ KnownFlag.aconfigValueSets) : (flag.inherit inherited).Settled := by
  have hpos := List.length_pos_iff.mpr h.traces_ne_nil
  obtain ⟨first, rest, hcons⟩ := List.exists_cons_of_ne_nil hinherited.traces_ne_nil
  have hlast := hinherited.last_value
  have htraces : (flag.inherit inherited).traces = flag.traces ++ rest := by
    rw [inherit_traces hname, hcons, List.tail_cons]
  have hvalue := hinherited.inherit_value flag hname
  cases rest with
  | nil =>
    -- the inherited flag was never changed
    have hoverridden : inherited.isOverridden = false := by simp [isOverridden, hcons]
    rw [hoverridden, if_neg Bool.false_ne_true] at hvalue
    rw [List.append_nil] at htraces
    refine ⟨by rw [htraces, hvalue, h.last_value], fun hredacted => ?_⟩
    rw [inherit_redacted, Bool.or_eq_true] at hredacted
    rw [isOverridden, htraces]
    rcases hredacted with hredacted | hredacted
    · exact h.overridden hredacted
    · rw [hinherited.overridden hredacted] at hoverridden
      cases hoverridden
  | cons second rest =>
    have hoverridden : inherited.isOverridden = true := by simp [isOverridden, hcons]
    rw [hoverridden, if_pos rfl] at hvalue
    rw [hcons, List.getLast?_cons_cons] at hlast
    refine ⟨?_, fun _ => ?_⟩
    · rw [htraces, hvalue, List.getLast?_append, List.getLast?_cons, Option.some_or,
        ← List.getLast?_cons, hlast]
    · simp only [isOverridden, htraces, List.length_append, List.length_cons, decide_eq_true_eq]
      omega

/-! ### Several configs -/

/-- The flag of the name is settled in the config, and stored under its name. -/
def SettledIn (name : String) (resolved : Resolved) : Prop :=
  ∀ inherited, resolved.flags.get? name = some inherited →
    inherited.name = name ∧ inherited.Settled

lemma Settled.mergeAll (h : flag.Settled) (hname : name ≠ KnownFlag.aconfigValueSets)
    (hconfigs : ∀ resolved ∈ configs, SettledIn name resolved) :
    (flag.mergeAll name configs).Settled := by
  induction configs generalizing flag with
  | nil => exact h
  | cons first rest ih =>
    have hfirst : (flag.merge (first.flags.get? name)).Settled := by
      cases hget : first.flags.get? name with
      | none => exact h
      | some inherited =>
        obtain ⟨hinherited, hsettled⟩ := hconfigs first List.mem_cons_self inherited hget
        exact h.inherit hsettled (hinherited ▸ hname)
    exact ih hfirst fun resolved hmem => hconfigs resolved (List.mem_cons_of_mem _ hmem)

/-! ### Value sets -/

/-- Settling the value sets traces the value that it leaves. -/
lemma last_value_settleValueSets (flag : FlagState) :
    flag.settleValueSets.traces.getLast?.map Tracepoint.value =
      some flag.settleValueSets.value := by
  simp only [settleValueSets]
  split
  · next hlast => exact hlast
  · simp

lemma exists_last (h : flag.traces.getLast?.map Tracepoint.value = some flag.value) :
    ∃ earlier last, flag.traces = earlier ++ [last] ∧ last.value = flag.value := by
  obtain ⟨last, hlast, hvalue⟩ := Option.map_eq_some_iff.mp h
  obtain ⟨earlier, htraces⟩ := List.getLast?_eq_some_iff.mp hlast
  exact ⟨earlier, last, htraces, hvalue⟩

end FlagState

namespace Registry

open FlagState (SettledIn)

variable {registry : Registry} {config : ReleaseConfig} {resolved : Resolved} {name : String}

/-- Every flag but the value sets is settled in every resolved config. -/
theorem Reached.settledIn (h : registry.Reached) (hname : name ≠ KnownFlag.aconfigValueSets)
    (hr : registry.Resolves config resolved) : SettledIn name resolved := by
  refine hr.induction (P := fun _ resolved => SettledIn name resolved)
    fun f config resolved hf hcompile => ?_
  have hnamed : registry.flags.Named := fun _ _ => h.flags_named
  obtain ⟨s⟩ := stages_of_compile hcompile
  have hcomposed := s.composed h.coherent.named fun other r _ hother =>
    (hf other r hother).1.sameDeclarations.named hnamed
  have hinherited : ∀ inherited ∈ s.parents.map Prod.snd ++ (s.applied.map Prod.snd).toList,
      SettledIn name inherited := by
    intro inherited hmem
    obtain ⟨other, -, hother⟩ := hcomposed.exists_ok h.coherent.named hmem
    exact (hf other inherited hother).2
  have hsame := s.becomes.sameDeclarations
  intro flag hflag
  refine ⟨hsame.named hnamed name flag hflag, ?_⟩
  obtain ⟨base, hbase, -⟩ := hsame.exists_get? hflag
  obtain ⟨before, -, hassign, hfinal⟩ := hcomposed.flag name base hname hbase
  obtain rfl := Option.some.inj (hfinal.symm.trans hflag)
  have hstart : base.Settled := (h.flags_declared hbase).settled
  have hmerged := hstart.mergeAll hname fun inherited hmem =>
    hinherited inherited (List.mem_append_left _ hmem)
  exact (hmerged.assignments hassign).mergeAll hname fun inherited hmem =>
    hinherited inherited (List.mem_append_right _ hmem)

/-- The value of the flag of the value sets is the last one that was traced. -/
lemma Stages.last_value_valueSets {f : ReleaseConfig → Except Error Resolved}
    (s : registry.Stages f config resolved) {flag : FlagState}
    (hflag : resolved.flags.get? KnownFlag.aconfigValueSets = some flag) :
    flag.traces.getLast?.map Tracepoint.value = some flag.value := by
  rw [(freeze_eq_ok s.resolved_eq).1, Flags.settleValueSets, NameMap.get?_modify_self] at hflag
  obtain ⟨before, -, rfl⟩ := Option.map_eq_some_iff.mp hflag
  exact before.last_value_settleValueSets

/-- Every flag of a resolved config was traced, and its value is that of its last tracepoint; so
it is in the report. -/
theorem value_of_last_trace (h : registry.Reached) {target : String}
    (hr : ((generate target).run registry).1 = .ok resolved) :
    (∀ name flag, resolved.flags.get? name = some flag →
      ∃ earlier last, flag.traces = earlier ++ [last] ∧ last.value = flag.value) ∧
    ∀ report ∈ resolved.report.flags,
      ∃ earlier last, report.traces = earlier ++ [last] ∧ last.value = report.value := by
  obtain ⟨config, -, hc, hr⟩ := h.coherent.exists_of_generate hr
  obtain ⟨s⟩ := h.coherent.stages hc hr
  have hlast (name : String) (flag : FlagState) (hflag : resolved.flags.get? name = some flag) :
      ∃ earlier last, flag.traces = earlier ++ [last] ∧ last.value = flag.value := by
    by_cases hname : name = KnownFlag.aconfigValueSets
    · exact FlagState.exists_last (s.last_value_valueSets (hname ▸ hflag))
    · have hsettled := h.settledIn hname (h.coherent.resolves hc hr) flag hflag
      exact FlagState.exists_last hsettled.2.last_value
  refine ⟨hlast, fun report hreport => ?_⟩
  rw [(h.coherent.resolves hc hr).report_flags] at hreport
  obtain ⟨flag, hflag, rfl⟩ := List.mem_map.mp hreport
  obtain ⟨name, hget⟩ := NameMap.mem_values.mp hflag
  exact hlast name flag hget

/-- A redacted flag agrees with its traces too. -/
theorem value_of_last_trace_sample : sampled.Reached ∧
    ∃ resolved flag earlier last, ((generate "a").run sampled).1 = .ok resolved ∧
      resolved.flags.get? "F" = some flag ∧ flag.redacted = true ∧
      flag.traces = earlier ++ [last] ∧ last.value = flag.value := by
  obtain ⟨-, resolved, flag, hrun, hflag, hredacted⟩ := sample_hides
  obtain ⟨earlier, last, htraces, hvalue⟩ :=
    (value_of_last_trace sampled_reached hrun).1 "F" flag hflag
  exact ⟨sampled_reached, resolved, flag, earlier, last, hrun, hflag, hredacted, htraces, hvalue⟩

end Registry

end ReleaseFlags
