import ReleaseFlags.Proofs.Resolution.Session

/-!
# Configs that are not read

Resolving a config reads no config but those that it consults: its effective parents, and for a
release the build variant config that the options name.  So if two registries differ in a single
config, a config from which that one cannot be reached has the same plan in both
(`SameExcept.plan_eq`), hence the same walk (`SameExcept.resolve_eq`), and every name of it the same
result or the same error (`generate_of_sameExcept`).
-/

namespace ReleaseFlags

namespace Registry

open Relation

variable {registry registry' : Registry} {config other : ReleaseConfig} {key : String}

/-- Resolving the config may look at the other one: it is an effective parent, or the config is a
release and the other one is what the name of the build variant leads to, whatever its kind is. -/
def Consults (registry : Registry) (config other : ReleaseConfig) : Prop :=
  registry.Parent config other ∨
    config.kind = .release ∧
      ∃ name, registry.options.buildVariant = some name ∧ registry.configStrict name = .ok other

lemma Edge.consults (h : registry.Edge config other) : registry.Consults config other := by
  rcases h with hparent | ⟨hrelease, -, hvariant⟩
  · exact .inl hparent
  · exact .inr ⟨hrelease, hvariant⟩

/-- The registries have the same settings, and the same configs under all names but one, which both
have or neither has. -/
structure SameExcept (key : String) (registry registry' : Registry) : Prop where
  aliases : registry.aliases = registry'.aliases
  flags : registry.flags = registry'.flags
  directories : registry.directories = registry'.directories
  filesUsed : registry.filesUsed = registry'.filesUsed
  options : registry.options = registry'.options
  allowMissing : registry.allowMissing = registry'.allowMissing
  names : registry.configs.names = registry'.configs.names
  configs : ∀ name, name ≠ key → registry.configs.get? name = registry'.configs.get? name

/-- The config is not the one that is stored under the name. -/
def IsNot (registry : Registry) (key : String) (config : ReleaseConfig) : Prop :=
  registry.configs.get? key ≠ some config

/-- Whether a name leads to a config is a matter of which names there are. -/
lemma isSome_lookup (registry : Registry) (name : String) (allowMissing : Bool) :
    (registry.lookup name allowMissing).toOption.isSome =
      match aliasChain registry.aliases name with
      | .error _ => false
      | .ok (last, _) => registry.configs.contains last ||
          (allowMissing && registry.configs.contains fallbackName) := by
  simp only [lookup, NameMap.contains]
  cases aliasChain registry.aliases name with
  | error trace => rfl
  | ok found =>
    obtain ⟨last, trace⟩ := found
    cases hlast : registry.configs.get? last with
    | some config => simp [hlast, Except.toOption]
    | none =>
      cases allowMissing with
      | false => simp [hlast, Except.toOption]
      | true => cases registry.configs.get? fallbackName <;> simp [hlast, Except.toOption]

namespace SameExcept

variable (h : SameExcept key registry registry')
include h

/-- Apart from configs, maps and caches, the registries are equal. -/
lemma exists_eq : ∃ configs maps resolved,
    registry' = { registry with configs := configs, maps := maps, resolved := resolved } := by
  obtain ⟨h₁, h₂, h₃, h₄, h₅, h₆, -, -⟩ := h
  obtain ⟨⟩ := registry
  obtain ⟨⟩ := registry'
  subst h₁ h₂ h₃ h₄ h₅ h₆
  exact ⟨_, _, _, rfl⟩

/-! ### Looking up names -/

/-- A name under which the other registry may have a different config leads to that one. -/
lemma get?_eq {name : String}
    (hread : ∀ found, registry.configs.get? name = some found → registry.IsNot key found) :
    registry.configs.get? name = registry'.configs.get? name := by
  by_cases hname : name = key
  · subst hname
    have hnone : registry.configs.get? name = none :=
      Option.eq_none_iff_forall_ne_some.mpr fun found hfound => hread found hfound hfound
    -- neither registry has the name
    have hnone' : registry'.configs.get? name = none := by
      refine Option.eq_none_iff_forall_ne_some.mpr fun found hfound => ?_
      have hmem : name ∈ registry.configs.names :=
        h.names ▸ NameMap.mem_names.mpr ⟨found, hfound⟩
      obtain ⟨old, hold⟩ := NameMap.mem_names.mp hmem
      exact hread old hold hold
    rw [hnone, hnone']
  · exact h.configs name hname

/-- Looking up a name gives the same config or the same error, unless it gives the one config. -/
lemma lookup_eq {name : String} {allowMissing : Bool}
    (hread : ∀ found, registry.lookup name allowMissing = .ok found → registry.IsNot key found) :
    registry.lookup name allowMissing = registry'.lookup name allowMissing := by
  simp only [lookup, ← h.aliases] at hread ⊢
  cases hchain : aliasChain registry.aliases name with
  | error trace => rfl
  | ok found =>
    obtain ⟨last, trace⟩ := found
    simp only [hchain] at hread ⊢
    have hlast : registry.configs.get? last = registry'.configs.get? last :=
      h.get?_eq fun config hget => hread config (by rw [hget])
    rw [← hlast]
    cases hget : registry.configs.get? last with
    | some config => rfl
    | none =>
      simp only [hget] at hread ⊢
      cases allowMissing with
      | false => rfl
      | true =>
        simp only [if_true] at hread ⊢
        rw [h.get?_eq fun config hfallback => hread config (by rw [hfallback])]

lemma contains_eq (name : String) :
    registry.configs.contains name = registry'.configs.contains name := by
  rw [Bool.eq_iff_iff, NameMap.contains, NameMap.contains, Option.isSome_iff_exists,
    Option.isSome_iff_exists, ← NameMap.mem_names, ← NameMap.mem_names, h.names]

lemma parentNames_eq (config : ReleaseConfig) :
    registry.parentNames config = registry'.parentNames config := by
  -- only whether there is a root config counts, not which one it is
  refine ite_congr ?_ (fun _ => rfl) fun _ => rfl
  simp only [configStrict, isSome_lookup, h.aliases, h.contains_eq]

/-! ### Plans -/

lemma parentOf_eq (hread : ∀ other, registry.Consults config other → registry.IsNot key other)
    {name : String} (hname : name ∈ registry.parentNames config) :
    registry.parentOf config name = registry'.parentOf config name := by
  have hlookup : registry.config name = registry'.config name := by
    rw [Registry.config, Registry.config, ← h.allowMissing]
    exact h.lookup_eq fun found hfound => hread found (.inl ⟨name, hname, hfound⟩)
  rw [parentOf, parentOf, h.aliases, hlookup]

lemma variantFor_eq (hread : ∀ other, registry.Consults config other → registry.IsNot key other)
    (flags : Flags) : registry.variantFor config flags = registry'.variantFor config flags := by
  simp only [variantFor]
  split
  · next huses =>
    have hrelease := (usesVariant_iff.mp huses).1
    simp only [variantOf, ← h.options]
    cases hname : registry.options.buildVariant with
    | none => rfl
    | some name =>
      have hlookup : registry.configStrict name = registry'.configStrict name :=
        h.lookup_eq fun found hfound => hread found (.inr ⟨hrelease, name, hname, hfound⟩)
      simp only [hlookup]
  · rfl

lemma applyOwn_eq (config : ReleaseConfig) (working : Working) :
    registry.applyOwn config working = registry'.applyOwn config working := by
  have hparents := h.parentNames_eq config
  obtain ⟨configs, maps, resolved, rfl⟩ := h.exists_eq
  simp only [applyOwn, hparents]
  rfl

lemma freeze_eq (config : ReleaseConfig) (working : Working) (inherits : List String) :
    working.freeze registry config inherits = working.freeze registry' config inherits := by
  obtain ⟨configs, maps, resolved, rfl⟩ := h.exists_eq
  rfl

/-- A config that does not consult the one config has the same plan. -/
theorem plan_eq (hread : ∀ other, registry.Consults config other → registry.IsNot key other) :
    registry.plan config = registry'.plan config := by
  have hmerged (working : Working) :
      (registry.parentNames config).foldlM (registry.inheritParent Plan.query config) working =
        (registry.parentNames config).foldlM (registry'.inheritParent Plan.query config) working :=
    foldlM_congr_of_mem fun working name hname => by
      simp only [inheritParent, h.parentOf_eq hread hname]
  have hvariant (working : Working) : registry.inheritVariant Plan.query config working =
      registry'.inheritVariant Plan.query config working := by
    simp only [inheritVariant, h.variantFor_eq hread]
  simp only [plan, compile, hmerged, hvariant, h.applyOwn_eq, h.freeze_eq, ← h.parentNames_eq,
    h.flags]

/-- A config from which the one config cannot be reached has the same walk, in any cache. -/
theorem resolve_eq {depth : Nat} {active : List String}
    (hread : ∀ other, ReflTransGen registry.Consults config other → registry.IsNot key other) :
    registry.resolve depth active config = registry'.resolve depth active config := by
  induction depth generalizing active config with
  | zero =>
    funext cache
    have hrun := registry.resolve_run 0 active config cache
    exact hrun.trans (registry'.resolve_run 0 active config cache).symm
  | succ depth ih =>
    funext cache
    have hrun := registry.resolve_run (depth + 1) active config cache
    have hrun' := registry'.resolve_run (depth + 1) active config cache
    have hbelow : (registry.plan config).run (registry.resolve depth (config.name :: active)) =
        (registry'.plan config).run (registry'.resolve depth (config.name :: active)) := by
      rw [← h.plan_eq fun other hconsults => hread other (.single hconsults)]
      exact Plan.run_congr (registry.plan_all_edge config) fun other hedge =>
        ih fun x hx => hread x (.head hedge.consults hx)
    simp only [hbelow] at hrun
    exact hrun.trans hrun'.symm

end SameExcept

/-- Two registries with the same settings and the same names of configs, whose configs are the same
but for one, give with an empty cache the same result for a name, or the same error, if that one
config is not reached from the config of the name. -/
theorem generate_of_sameExcept (h : SameExcept key registry registry') {name : String}
    (hread : ∀ config other, registry.configStrict name = .ok config →
      ReflTransGen registry.Consults config other → registry.configs.get? key ≠ some other) :
    ((generate name).run registry.forget).1 = ((generate name).run registry'.forget).1 := by
  have hstrict : registry.configStrict name = registry'.configStrict name :=
    h.lookup_eq fun found hfound => hread found found hfound .refl
  have hsize : registry.configs.size = registry'.configs.size := by
    rw [← NameMap.length_names, ← NameMap.length_names, h.names]
  have hforget (registry : Registry) : registry.forget.configStrict = registry.configStrict := rfl
  rw [generate_run, generate_run, hforget, hforget, ← hstrict]
  cases hconfig : registry.configStrict name with
  | error e => rfl
  | ok config =>
    have hwalk : registry.resolveIn config = registry'.resolveIn config := by
      rw [resolveIn, resolveIn, hsize]
      exact h.resolve_eq fun other hother => hread config other hconfig hother
    simp only [outcomeOf, forget, resolveIn_withCache, hwalk]
    rfl

/-! ### A sample -/

/-- A release that inherits the named ones. -/
def heir (name : String) (inherits : List String) : ReleaseConfig :=
  { ReleaseConfig.new name 0 .release with inheritNames := inherits }

/-- The config `a` inherits `b`, and `d` inherits `a`; whether `d` may be the target of a build is
left open. -/
def heirs (disallow : Bool) : Registry :=
  let others := (NameMap.empty.insert "a" (heir "a" ["b"])).insert "b" (heir "b" [])
  { empty with configs := others.insert "d" { heir "d" ["a"] with disallowLunchUse := disallow } }

lemma heirs_sameExcept (disallow disallow' : Bool) :
    SameExcept "d" (heirs disallow) (heirs disallow') where
  aliases := rfl
  flags := rfl
  directories := rfl
  filesUsed := rfl
  options := rfl
  allowMissing := rfl
  names := rfl
  configs := by
    intro name hname
    simp only [heirs, NameMap.get?_insert_of_ne _ _ hname]

/-- From `a` nothing is reached but `a` and `b`. -/
lemma heirs_consults {other : ReleaseConfig}
    (h : ReflTransGen (heirs false).Consults (heir "a" ["b"]) other) :
    other = heir "a" ["b"] ∨ other = heir "b" [] := by
  have ha : (heirs false).parentNames (heir "a" ["b"]) = ["b"] := by decide +kernel
  have hb : (heirs false).parentNames (heir "b" []) = [] := by decide +kernel
  have hconfig : (heirs false).config "b" = .ok (heir "b" []) := by rfl
  induction h with
  | refl => exact .inl rfl
  | tail _ hstep ih =>
    rcases hstep with ⟨name, hname, hother⟩ | ⟨-, name, hvariant, -⟩
    · rcases ih with rfl | rfl
      · rw [ha, List.mem_singleton] at hname
        rw [hname, hconfig] at hother
        exact .inr (Except.ok.inj hother).symm
      · rw [hb] at hname
        cases hname
    · cases hvariant

/-- Whether `d` may be the target of a build makes no difference for `a`. -/
theorem generate_of_sameExcept_heirs : SameExcept "d" (heirs false) (heirs true) ∧
    (heirs false).configs ≠ (heirs true).configs ∧
      ((generate "a").run (heirs false).forget).1 = ((generate "a").run (heirs true).forget).1 := by
  have hother (config other : ReleaseConfig) (hconfig : (heirs false).configStrict "a" = .ok config)
      (hother : ReflTransGen (heirs false).Consults config other) :
      (heirs false).configs.get? "d" ≠ some other := by
    have ha : (heirs false).configStrict "a" = .ok (heir "a" ["b"]) := by rfl
    obtain rfl := Except.ok.inj (ha.symm.trans hconfig)
    rcases heirs_consults hother with rfl | rfl
    · decide +kernel
    · decide +kernel
  exact ⟨heirs_sameExcept false true, by decide +kernel,
    generate_of_sameExcept (heirs_sameExcept false true) hother⟩

end Registry

end ReleaseFlags
