import ReleaseFlags.Proofs.Resolution.Session

/-!
# Registries that differ in a setting

A setting may decide whether something that is missing is an error.  Of two registries that differ
in such a setting the strict one refuses what the other one lets pass, and apart from that both do
the same (`Stricter`).  So their walks go on side by side until the strict one is refused: every
name has the same result or the same error in both, or the strict walk ends with a refusal, and
that is the refusal of a config which is reached (`Stricter.resolution`).
-/

namespace ReleaseFlags

variable {ε α β : Type} {refuses refuses' : ε → Prop}

/-- The outcome of the strict run is that of the lenient run, or a refusal. -/
def AgreesUnless (refuses : ε → Prop) (strict lenient : Except ε α) : Prop :=
  strict = lenient ∨ ∃ e, refuses e ∧ strict = .error e

lemma AgreesUnless.refl (outcome : Except ε α) : AgreesUnless refuses outcome outcome := .inl rfl

lemma AgreesUnless.mono {strict lenient : Except ε α} (h : AgreesUnless refuses strict lenient)
    (himp : ∀ e, refuses e → refuses' e) : AgreesUnless refuses' strict lenient := by
  rcases h with h | ⟨e, he, h⟩
  · exact .inl h
  · exact .inr ⟨e, himp e he, h⟩

lemma AgreesUnless.bind {strict lenient : Except ε α} {f g : α → Except ε β}
    (h : AgreesUnless refuses strict lenient) (hnext : ∀ a, AgreesUnless refuses (f a) (g a)) :
    AgreesUnless refuses (strict >>= f) (lenient >>= g) := by
  rcases h with rfl | ⟨e, he, rfl⟩
  · cases strict with
    | ok a => exact hnext a
    | error e => exact .refl (.error e)
  · exact .inr ⟨e, he, rfl⟩

/-! ### Plans -/

namespace Plan

variable {refuses : Error → Prop} {strict lenient : Plan α}

/-- The plans ask for the same configs and end alike, unless the strict one is refused: then it
ends, whatever the lenient one goes on to do. -/
inductive AgreesUnless (refuses : Error → Prop) : Plan α → Plan α → Prop
  | done (outcome : Except Error α) : AgreesUnless refuses (done outcome) (done outcome)
  | refused {e : Error} (he : refuses e) (lenient : Plan α) :
      AgreesUnless refuses (done (.error e)) lenient
  | ask {config : ReleaseConfig} {next next' : Resolved → Plan α}
      (h : ∀ resolved, AgreesUnless refuses (next resolved) (next' resolved)) :
      AgreesUnless refuses (ask config next) (ask config next')

namespace AgreesUnless

lemma refl (p : Plan α) : p.AgreesUnless refuses p := by
  induction p with
  | done outcome => exact .done outcome
  | ask config next ih => exact .ask ih

lemma lift {outcome outcome' : Except Error α}
    (h : ReleaseFlags.AgreesUnless refuses outcome outcome') :
    AgreesUnless refuses (liftM outcome : Plan α) (liftM outcome' : Plan α) := by
  rcases h with rfl | ⟨e, he, rfl⟩
  · exact .done outcome
  · exact .refused he _

lemma mono {refuses' : Error → Prop} (h : strict.AgreesUnless refuses lenient)
    (himp : ∀ e, refuses e → refuses' e) : strict.AgreesUnless refuses' lenient := by
  induction h with
  | done outcome => exact .done outcome
  | refused he lenient => exact .refused (himp _ he) lenient
  | ask _ ih => exact .ask ih

lemma bind {f g : α → Plan β} (h : strict.AgreesUnless refuses lenient)
    (hnext : ∀ a, (f a).AgreesUnless refuses (g a)) :
    (strict >>= f).AgreesUnless refuses (lenient >>= g) := by
  induction h with
  | done outcome =>
    cases outcome with
    | ok a => exact hnext a
    | error e => exact .done (.error e)
  | refused he lenient => exact .refused he _
  | ask _ ih => exact .ask ih

lemma foldlM {f g : β → α → Plan β} {items : List α} (b : β)
    (h : ∀ b, ∀ a ∈ items, (f b a).AgreesUnless refuses (g b a)) :
    (items.foldlM f b).AgreesUnless refuses (items.foldlM g b) := by
  induction items generalizing b with
  | nil => exact .refl _
  | cons a rest ih =>
    rw [List.foldlM_cons, List.foldlM_cons]
    refine bind (h b a List.mem_cons_self) fun b => ih b fun b a ha => ?_
    exact h b a (List.mem_cons_of_mem _ ha)

/-- The runs of two plans agree if the answers to their questions do. -/
lemma run {f g : ReleaseConfig → Except Error Resolved} {P : ReleaseConfig → Prop}
    (h : strict.AgreesUnless refuses lenient) (hall : strict.All P)
    (hanswer : ∀ other, P other → ReleaseFlags.AgreesUnless refuses (f other) (g other)) :
    ReleaseFlags.AgreesUnless refuses (strict.run f) (lenient.run g) := by
  induction h with
  | done outcome => exact .refl outcome
  | refused he lenient => exact .inr ⟨_, he, rfl⟩
  | ask _ ih => exact (hanswer _ hall.1).bind fun resolved => ih resolved (hall.2 resolved)

end AgreesUnless

end Plan

/-! ### Registries -/

namespace Registry

open Relation

variable {strict lenient : Registry} {refuses : ReleaseConfig → Error → Prop}

/-- The strict registry has all that the lenient one has, and does the same except that it may
refuse a parent or the build variant config of a config. -/
structure Stricter (refuses : ReleaseConfig → Error → Prop) (strict lenient : Registry) :
    Prop where
  configs : strict.configs = lenient.configs
  aliases : strict.aliases = lenient.aliases
  flags : strict.flags = lenient.flags
  applyOwn : strict.applyOwn = lenient.applyOwn
  freeze : ∀ working : Working, working.freeze strict = working.freeze lenient
  parentOf : ∀ config, ∀ name ∈ strict.parentNames config,
    AgreesUnless (refuses config) (strict.parentOf config name) (lenient.parentOf config name)
  variantFor : ∀ config flags,
    AgreesUnless (refuses config) (strict.variantFor config flags) (lenient.variantFor config flags)

/-- A refusal that a config may end with: that of a config which is reached from it. -/
def RefusedBelow (registry : Registry) (refuses : ReleaseConfig → Error → Prop)
    (config : ReleaseConfig) (e : Error) : Prop :=
  ∃ other, ReflTransGen registry.Edge config other ∧ refuses other e

namespace Stricter

variable (h : Stricter refuses strict lenient)
include h

lemma configStrict : strict.configStrict = lenient.configStrict := by
  funext name
  simp only [Registry.configStrict, lookup, h.configs, h.aliases]

lemma parentNames : strict.parentNames = lenient.parentNames := by
  funext config
  simp only [Registry.parentNames, h.configStrict]

/-- The plans of a config go on side by side until it is refused something. -/
theorem plan (config : ReleaseConfig) :
    (strict.plan config).AgreesUnless (refuses config) (lenient.plan config) := by
  simp only [Registry.plan, compile, ← h.parentNames, ← h.flags, ← h.applyOwn, ← h.freeze]
  refine .bind (.foldlM _ fun working name hname => ?_) fun merged => ?_
  · exact .bind (.lift (h.parentOf config name hname)) fun parent => .refl _
  · refine .bind (.refl _) fun own => .bind ?_ fun final => .refl _
    exact .bind (.lift (h.variantFor config own.flags)) fun variant => .refl _

/-- The walks go on side by side until a config that is reached is refused something. -/
theorem resolveAnew (depth : Nat) (active : List String) (config : ReleaseConfig) :
    AgreesUnless (strict.RefusedBelow refuses config) (strict.resolveAnew depth active config)
      (lenient.resolveAnew depth active config) := by
  induction depth generalizing active config with
  | zero =>
    rw [resolveAnew_zero, resolveAnew_zero]
    exact .refl _
  | succ depth ih =>
    by_cases hmem : config.name ∈ active
    · rw [resolveAnew_of_mem _ hmem, resolveAnew_of_mem _ hmem]
      exact .refl _
    · rw [resolveAnew_succ depth hmem, resolveAnew_succ depth hmem]
      have hplan := (h.plan config).mono fun e he =>
        (⟨config, .refl, he⟩ : strict.RefusedBelow refuses config e)
      refine hplan.run (strict.plan_all_edge config) fun other hedge => ?_
      -- what is reached from the other config is reached from here
      refine (ih (config.name :: active) other).mono ?_
      rintro e ⟨last, hpath, he⟩
      exact ⟨last, .head hedge hpath, he⟩

/-- A name has the same result or the same error in both registries, unless a config that is
reached from its config is refused something. -/
theorem resolution (name : String) :
    AgreesUnless (fun e => ∃ config, strict.configStrict name = .ok config ∧
      strict.RefusedBelow refuses config e) (strict.resolution name) (lenient.resolution name) := by
  simp only [Registry.resolution, ← h.configStrict]
  cases strict.configStrict name with
  | error e => exact .refl (.error e)
  | ok config =>
    change AgreesUnless _ (strict.anew config) (lenient.anew config)
    have hwalk := h.resolveAnew strict.configs.size [] config
    have hsize : strict.configs.size = lenient.configs.size := by rw [h.configs]
    rw [anew, anew, ← hsize]
    exact hwalk.mono fun e he => ⟨config, rfl, he⟩

/-- What the strict registry resolves has the same resolution in the lenient one. -/
lemma resolves {config : ReleaseConfig} {resolved : Resolved}
    (hr : strict.Resolves config resolved) : lenient.Resolves config resolved := by
  obtain ⟨depth, hr⟩ := hr
  rcases h.resolveAnew depth [] config with hagree | ⟨e, -, hrefused⟩
  · exact ⟨depth, hagree ▸ hr⟩
  · rw [hrefused] at hr
    cases hr

end Stricter

end Registry

end ReleaseFlags
