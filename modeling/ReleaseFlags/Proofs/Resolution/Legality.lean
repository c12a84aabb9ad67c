import ReleaseFlags.Proofs.Resolution.Hidden

/-!
# Resolved configs keep the rules

Resolving checks each own value when it is applied, and each parent when it is merged.  The state
that a value is checked against is one that the declared flags became, so what a check finds out
holds of the declared flags; and what was redacted before stays redacted up to the check.  A
config that resolves therefore keeps all rules (`Legal`), and so does every config that it merges,
directly or through others (`legal_of_generate`).
-/

namespace ReleaseFlags

variable {registry : Registry} {config : ReleaseConfig} {resolved : Resolved}
  {c : Contribution} {value : Assignment} {flags flags' : Flags} {flag : FlagState}
  {working working' : Working}

/-! ### What the checks find out -/

/-- The value is for a declared flag that the contribution may set: the flag is declared in no
later directory, and it is maintained by hand if the config is the root config. -/
def Contribution.MaySet (flags : Flags) (config : ReleaseConfig) (c : Contribution)
    (value : Assignment) : Prop :=
  ∃ flag, flags.get? value.name = some flag ∧
    (∀ index, flag.declarationIndex = some index → index ≤ c.index) ∧
    (config.name = rootName → flag.declaration.workflow = .manual)

namespace Assignment

/-- The value is not a plain one for a redacted flag. -/
def Respects (flags : Flags) (value : Assignment) : Prop :=
  flags.hides value.name = true → value.redacted = true

/-- The value is not a plain one for a flag that the earlier value redacts. -/
def MayFollow (earlier value : Assignment) : Prop :=
  earlier.name = value.name → earlier.redacted = true → value.redacted = true

end Assignment

lemma checkMaySet_eq_ok : c.checkMaySet registry config flag value = .ok () ↔
    (∀ index, flag.declarationIndex = some index → index ≤ c.index) ∧
      (config.name = rootName → flag.declaration.workflow = .manual) := by
  have hworkflow : (if config.name = rootName ∧ flag.declaration.workflow ≠ .manual then
      throw (.nonManualInRoot value.name value.path) else pure () : Except Error Unit) = .ok () ↔
        (config.name = rootName → flag.declaration.workflow = .manual) := by
    simp only [ite_throw_eq_ok, not_and, ne_eq, Decidable.not_not]
  simp only [Contribution.checkMaySet]
  cases flag.declarationIndex with
  | none => simpa using hworkflow
  | some declaredAt =>
    by_cases hless : c.index < declaredAt
    · -- the flag is declared in a later directory
      have hlate : ¬ declaredAt ≤ c.index := Nat.not_le_of_gt hless
      simp [hless, hlate, bind_eq_ok]
    · simpa [hless, Nat.le_of_not_lt hless] using hworkflow

lemma checkFlagsOnly_eq_ok : c.checkFlagsOnly config = .ok () ↔
    (config.aconfigFlagsOnly = true →
      ∀ value ∈ c.values, value.name = KnownFlag.extraReleaseConfigs) := by
  simp only [Contribution.checkFlagsOnly]
  split
  · next value hfind =>
    have hother : value.name ≠ KnownFlag.extraReleaseConfigs := by simpa using List.find?_some hfind
    have hmem := List.mem_of_find?_eq_some hfind
    split
    · next honly => simpa [honly] using ⟨value, hmem, hother⟩
    · next hany => simp [hany]
  · next hfind =>
    have hall : ∀ value ∈ c.values, value.name = KnownFlag.extraReleaseConfigs := by
      simpa using List.find?_eq_none.mp hfind
    exact ⟨fun _ _ => hall, fun _ => rfl⟩

lemma Contribution.MaySet.of_becomes (hbecomes : flags.Becomes flags')
    (h : c.MaySet flags' config value) : c.MaySet flags config value := by
  obtain ⟨later, hlater, hindex, hworkflow⟩ := h
  obtain ⟨flag, hget, hflag⟩ := hbecomes.exists_before hlater
  refine ⟨flag, hget, ?_, ?_⟩
  · rw [← hflag.declarationIndex]
    exact hindex
  · rw [← hflag.declaration]
    exact hworkflow

lemma Assignment.Respects.of_becomes (hbecomes : flags.Becomes flags')
    (h : value.Respects flags') : value.Respects flags :=
  fun hhides => h (hbecomes.hides hhides)

/-- The contribution may give the value when the flags have these states. -/
structure Contribution.Allows (flags : Flags) (config : ReleaseConfig) (c : Contribution)
    (value : Assignment) : Prop where
  may_set : c.MaySet flags config value
  respects : value.Respects flags

/-- What is allowed later is allowed before. -/
lemma Contribution.Allows.of_becomes (hbecomes : flags.Becomes flags')
    (h : c.Allows flags' config value) : c.Allows flags config value :=
  ⟨h.may_set.of_becomes hbecomes, h.respects.of_becomes hbecomes⟩

/-! ### Own values -/

/-- A value that is applied passes its checks. -/
lemma allows_of_applyValue (h : c.applyValue registry config flags value = .ok flags') :
    c.Allows flags config value := by
  obtain ⟨flag, flag', hget, hmay, hassign, -⟩ := applyValue_eq_ok h
  refine ⟨⟨flag, hget, checkMaySet_eq_ok.mp hmay⟩, fun hhides => ?_⟩
  rw [Flags.hides_of_get? hget] at hhides
  exact (FlagState.assign_eq_ok.mp hassign).2.1 hhides

/-- The values of a contribution pass their checks already where it begins, and each of them
respects the values before it. -/
lemma allows_of_apply (h : c.apply registry config flags = .ok flags') :
    (∀ value ∈ c.values, c.Allows flags config value) ∧
      c.values.Pairwise Assignment.MayFollow := by
  have hstep (flags : Flags) (value : Assignment) (flags' : Flags) (next : Assignment)
      (hvalue : c.applyValue registry config flags value = .ok flags')
      (hnext : c.Allows flags' config next) :
      c.Allows flags config next ∧ value.MayFollow next := by
    refine ⟨hnext.of_becomes (becomes_of_applyValue hvalue), fun hname hredacted => ?_⟩
    -- the value left the flag redacted
    refine hnext.respects ((hides_of_applyValue hvalue).trans ?_)
    simp [hname, hredacted]
  obtain ⟨hvalues, hpairwise⟩ := pairwise_of_foldlM
    (A := fun flags value => c.Allows flags config value)
    (fun _ _ _ => allows_of_applyValue) hstep (apply_eq_ok h).2
  exact ⟨fun value hvalue => (hvalues value hvalue).of_becomes (becomes_addValueSets c flags),
    hpairwise⟩

/-- The own values of a config pass their checks already where its parents are merged, and each of
them respects the values before it. -/
lemma allows_of_applyOwn (h : registry.applyOwn config working = .ok working') :
    (∀ c ∈ config.contributions, ∀ value ∈ c.values, c.Allows working.flags config value) ∧
      config.ownValues.Pairwise Assignment.MayFollow := by
  obtain ⟨flags, hversion, hown, -⟩ := applyOwn_eq_ok h
  have hstep (flags : Flags) (c : Contribution) (flags' : Flags) (next : Contribution)
      (hc : c.apply registry config flags = .ok flags')
      (hnext : ∀ value ∈ next.values, next.Allows flags' config value) :
      (∀ value ∈ next.values, next.Allows flags config value) ∧
        ∀ earlier ∈ c.values, ∀ value ∈ next.values, earlier.MayFollow value := by
    constructor
    · intro value hvalue
      exact (hnext value hvalue).of_becomes (becomes_of_apply hc)
    · intro earlier hearlier value hvalue hname hredacted
      refine (hnext value hvalue).respects ((hides_of_apply hc).trans ?_)
      have hany : (c.values.any fun other => other.name = value.name && other.redacted) = true :=
        List.any_eq_true.mpr ⟨earlier, hearlier, by simp [hname, hredacted]⟩
      rw [hany, Bool.or_true]
  obtain ⟨hvalues, hpairwise⟩ := pairwise_of_foldlM
    (A := fun flags c => ∀ value ∈ c.values, c.Allows flags config value)
    (fun _ _ _ hc => (allows_of_apply hc).1) hstep hown
  constructor
  · intro c hc value hvalue
    exact (hvalues c hc value hvalue).of_becomes (becomes_of_setPlatformVersion hversion)
  · refine List.pairwise_flatMap.mpr ⟨fun c hc => ?_, hpairwise⟩
    obtain ⟨_, _, happly⟩ := exists_ok_of_foldlM hown hc
    exact (allows_of_apply happly).2

/-! ### Configs -/

namespace Registry

open Relation

/-- The config keeps the rules of resolution. -/
structure Legal (registry : Registry) (config : ReleaseConfig) : Prop where
  /-- Each own value is for a declared flag, which its contribution may set. -/
  may_set : ∀ c ∈ config.contributions, ∀ value ∈ c.values, c.MaySet registry.flags config value
  /-- A config for value sets only sets no flag but one. -/
  flags_only : config.aconfigFlagsOnly = true →
    ∀ value ∈ config.ownValues, value.name = KnownFlag.extraReleaseConfigs
  /-- A config tied to a platform build inherits no alias. -/
  no_alias : isBuildPrefix config.name = true →
    ∀ name ∈ registry.parentNames config, registry.aliases.get? name = none
  /-- A build variant config inherits build variant configs only. -/
  kind : config.kind = .buildVariant →
    ∀ parent, registry.Parent config parent → parent.kind = .buildVariant
  /-- No own value is a plain one for a flag that is redacted in a parent. -/
  respects_parents : ∀ parent, registry.Parent config parent →
    ∃ inherited, registry.outcomeOf parent = .ok inherited ∧
      ∀ value ∈ config.ownValues, value.Respects inherited.flags
  /-- No own value is a plain one for a flag that an own value before it redacts. -/
  respects_earlier : config.ownValues.Pairwise Assignment.MayFollow

/-- A config that resolves keeps the rules. -/
lemma Stages.legal (s : registry.Stages registry.outcomeOf config resolved)
    (hnamed : ∀ e ∈ s.inherited, e.2.flags.Named) : registry.Legal config := by
  have hmerged := becomes_of_inheritAll s.merged_eq
  obtain ⟨hvalues, hpairwise⟩ := allows_of_applyOwn s.own_eq
  obtain ⟨_, -, hown, -⟩ := applyOwn_eq_ok s.own_eq
  have hparents : ∀ e ∈ s.parents, e.2.flags.Named :=
    fun e he => hnamed e (List.mem_append_left _ he)
  refine ⟨?_, ?_, ?_, ?_, ?_, hpairwise⟩
  · intro c hc value hvalue
    exact (hvalues c hc value hvalue).may_set.of_becomes hmerged
  · intro honly value hvalue
    obtain ⟨c, hc, hvalue⟩ := List.mem_flatMap.mp hvalue
    obtain ⟨_, _, happly⟩ := exists_ok_of_foldlM hown hc
    exact checkFlagsOnly_eq_ok.mp (apply_eq_ok happly).1 honly value hvalue
  · intro hbuild name hname
    obtain ⟨e, -, hfound⟩ := exists_mem_of_mapM s.parents_eq hname
    exact (parentOf_eq_ok.mp (findParent_eq_ok.mp hfound).1).1 hbuild
  · intro hvariant parent hparent
    obtain ⟨inherited, he⟩ := s.exists_mem_parents_iff.mpr hparent
    obtain ⟨_, _, hinherit⟩ := exists_ok_of_foldlM s.merged_eq he
    have hsame := (inherit_eq_ok hinherit).1 (by rw [hvariant]; rfl)
    exact hsame.symm.trans hvariant
  · intro parent hparent
    obtain ⟨inherited, he⟩ := s.exists_mem_parents_iff.mpr hparent
    refine ⟨inherited, s.ok_of_mem (List.mem_append_left _ he), fun value hvalue hhides => ?_⟩
    obtain ⟨c, hc, hvalue⟩ := List.mem_flatMap.mp hvalue
    have hallows := hvalues c hc value hvalue
    obtain ⟨base, hbase, -⟩ := hallows.may_set.of_becomes hmerged
    -- what is redacted in the parent is redacted when the parents are merged
    refine hallows.respects ((hides_of_inheritAll hparents hbase s.merged_eq).trans ?_)
    have hany : (s.parents.any fun e => e.2.flags.hides value.name) = true :=
      List.any_eq_true.mpr ⟨_, he, hhides⟩
    rw [hany, Bool.or_true]

/-- If a name or alias resolves, its config keeps the rules, and so does every config that it
merges, directly or through others.  A config is for value sets only if one of its contributions
says so. -/
theorem legal_of_generate (h : registry.Reached) {target : String}
    (hr : ((generate target).run registry).1 = .ok resolved) :
    ∃ config, registry.configStrict target = .ok config ∧
      ∀ other, ReflTransGen registry.Merges config other →
        registry.Legal other ∧ (other.aconfigFlagsOnly = true ↔
          ∃ c ∈ other.contributions, c.file.aconfigFlagsOnly = true) := by
  obtain ⟨config, hconfig, hc, hr⟩ := h.coherent.exists_of_generate hr
  refine ⟨config, hconfig, fun other hmerges => ?_⟩
  obtain ⟨hhas, r, hother⟩ := h.coherent.exists_outcome_of_merges hc hr hmerges
  obtain ⟨s⟩ := h.coherent.stages hhas hother
  refine ⟨s.legal fun e => h.named_of_mem s, ?_⟩
  rw [(h.assembled hhas).flags_only, List.any_eq_true]

/-- Not only the config keeps the rules, but also one that it inherits. -/
theorem legal_of_generate_layered : layered.Reached ∧
    ∃ config parent resolved, layered.configStrict "a" = .ok config ∧
      layered.Parent config parent ∧ ((generate "a").run layered).1 = .ok resolved ∧
      layered.Legal config ∧ layered.Legal parent := by
  obtain ⟨config, parent, resolved, hconfig, hparent, hrun, -⟩ := layered_shows
  obtain ⟨found, hfound, hlegal⟩ := legal_of_generate layered_reached hrun
  obtain rfl : config = found := Except.ok.inj (hconfig.symm.trans hfound)
  exact ⟨layered_reached, config, parent, resolved, hconfig, hparent, hrun,
    (hlegal config .refl).1, (hlegal parent (.single (.inl hparent))).1⟩

end Registry

end ReleaseFlags
