import Mathlib.Data.List.Chain
import ReleaseFlags.Proofs.Registry.Aliases

/-!
# Looking names up

A name leads along its aliases to a name that is no alias, or nowhere.  The loop that follows the
aliases ends in both cases (`ends_aliasChain`): the names that it has passed are different ones,
each the target of the one before (`Passes`), so a target that was passed before closes a circle,
and all that the name leads to lies on the circle or on the way there (`Circles.not_leadsTo`).
Which of the two happens decides what looking the name up gives (`looksUp_lookup`).
-/

namespace ReleaseFlags

namespace Registry

open Relation

variable {registry : Registry} {aliases : NameMap String} {name start last target : String}
  {trace way : List String} {steps : Nat} {allowMissing : Bool} {config : ReleaseConfig}
  {outcome : Except (List String) (String × List String)}

/-- The first name is an alias of the second one. -/
def Targets (aliases : NameMap String) (name target : String) : Prop :=
  aliases.get? name = some target

/-- Following the aliases from a name leads to the last name, which is no alias. -/
structure LeadsTo (aliases : NameMap String) (name last : String) : Prop where
  reaches : ReflTransGen (Targets aliases) name last
  unaliased : aliases.get? last = none

lemma Targets.unique {other : String} (h : Targets aliases name target)
    (h' : Targets aliases name other) : target = other :=
  Option.some.inj (h.symm.trans h')

/-- A name leads to one name at most. -/
lemma LeadsTo.unique {other : String} (h : LeadsTo aliases name last)
    (h' : LeadsTo aliases name other) : last = other := by
  have hstuck {one next : String} (hone : aliases.get? one = none)
      (hreaches : ReflTransGen (Targets aliases) one next) : one = next := by
    rcases hreaches.cases_head with heq | ⟨_, htarget, -⟩
    · exact heq
    · cases hone.symm.trans htarget
  have hunique : Relator.RightUnique (Targets aliases) := fun _ _ _ => Targets.unique
  rcases ReflTransGen.total_of_right_unique hunique h.reaches h'.reaches with hreaches | hreaches
  · exact hstuck h.unaliased hreaches
  · exact (hstuck h'.unaliased hreaches).symm

/-! ### The loop -/

/-- The loop that follows aliases, when it has come to a name and has passed the names of the trace,
ends with the outcome: at a name that is no alias, or at the first target that was passed before. -/
inductive Ends (aliases : NameMap String) :
    String → List String → Except (List String) (String × List String) → Prop
  | last {name : String} {trace : List String} (hname : aliases.get? name = none) :
      Ends aliases name trace (.ok (name, trace))
  | circle {name target : String} {trace : List String} (htarget : Targets aliases name target)
      (hpassed : target ∈ trace) : Ends aliases name trace (.error (trace ++ [target]))
  | next {name target : String} {trace : List String}
      {outcome : Except (List String) (String × List String)}
      (htarget : Targets aliases name target) (hnew : target ∉ trace)
      (hrest : Ends aliases target (trace ++ [target]) outcome) : Ends aliases name trace outcome

/-- With enough steps left, the loop ends before they are used up. -/
lemma ends_followAliases (h : Underway aliases steps name trace) :
    Ends aliases name trace (followAliases aliases steps name trace) := by
  induction steps generalizing name trace with
  | zero =>
    obtain ⟨_, hless⟩ := h.exists_succ
    omega
  | succ steps ih =>
    rw [followAliases]
    split
    · next hname => exact .last hname
    · next target htarget =>
      split
      · next hpassed => exact .circle htarget hpassed
      · next hnew => exact .next htarget hnew (ih (h.step htarget hnew))

/-- The loop ends for every name, and a chain of aliases is what it ends with. -/
lemma ends_aliasChain (aliases : NameMap String) (name : String) :
    Ends aliases name [name] (aliasChain aliases name) :=
  ends_followAliases (underway_start (Nat.lt_succ_self aliases.size) name)

/-! ### The names that are passed -/

/-- The names start with the first one, and each of the others is the target of the one before. -/
structure Traces (aliases : NameMap String) (start : String) (trace : List String) : Prop where
  head_eq : trace.head? = some start
  isChain : trace.IsChain (Targets aliases)

/-- The names that are passed on the way from the first name to another one. -/
structure Passes (aliases : NameMap String) (start name : String) (trace : List String) : Prop
    extends Traces aliases start trace where
  nodup : trace.Nodup
  last_eq : trace.getLast? = some name

/-- The names that are passed up to the first one that comes twice. -/
structure Circles (aliases : NameMap String) (start : String) (trace : List String) : Prop
    extends Traces aliases start trace where
  /-- The only name that is repeated is the last one. -/
  repeats : ∃ front last, trace = front ++ [last] ∧ front.Nodup ∧ last ∈ front

lemma passes_start (aliases : NameMap String) (start : String) :
    Passes aliases start start [start] :=
  ⟨⟨rfl, .singleton start⟩, List.pairwise_singleton _ start, rfl⟩

/-- The target of the name that was passed last follows the others. -/
lemma Passes.traces_target (h : Passes aliases start name trace)
    (htarget : Targets aliases name target) : Traces aliases start (trace ++ [target]) where
  head_eq := by
    rw [List.head?_append, h.head_eq, Option.some_or]
  isChain := by
    refine h.isChain.append (.singleton target) ?_
    rintro last hlast _ ⟨⟩
    obtain rfl : name = last := Option.some.inj (h.last_eq.symm.trans hlast)
    exact htarget

lemma Passes.step (h : Passes aliases start name trace) (htarget : Targets aliases name target)
    (hnew : target ∉ trace) : Passes aliases start target (trace ++ [target]) :=
  { h.traces_target htarget with
    nodup := by
      refine List.nodup_append.mpr ⟨h.nodup, List.pairwise_singleton _ target, ?_⟩
      rintro other hother _ hlast rfl
      exact hnew (List.mem_singleton.mp hlast ▸ hother)
    last_eq := List.getLast?_concat }

lemma Passes.circles (h : Passes aliases start name trace) (htarget : Targets aliases name target)
    (hpassed : target ∈ trace) : Circles aliases start (trace ++ [target]) :=
  { h.traces_target htarget with
    repeats := ⟨trace, target, rfl, h.nodup, hpassed⟩ }

/-- Where the loop ends, it has passed the names up to one that is no alias, or up to the first one
that comes twice. -/
lemma Ends.cases (h : Ends aliases name trace outcome) (hpasses : Passes aliases start name trace) :
    (∃ last way, outcome = .ok (last, way) ∧ aliases.get? last = none ∧
        Passes aliases start last way) ∨
      ∃ way, outcome = .error way ∧ Circles aliases start way := by
  induction h with
  | last hname => exact .inl ⟨_, _, rfl, hname, hpasses⟩
  | circle htarget hpassed => exact .inr ⟨_, rfl, hpasses.circles htarget hpassed⟩
  | next htarget hnew _ ih => exact ih (hpasses.step htarget hnew)

lemma Passes.leadsTo (h : Passes aliases start last way) (hlast : aliases.get? last = none) :
    LeadsTo aliases start last := by
  refine ⟨?_, hlast⟩
  obtain ⟨rest, rfl⟩ := List.head?_eq_some_iff.mp h.head_eq
  refine List.relationReflTransGen_of_exists_isChain_cons rest h.isChain ?_
  exact Option.some.inj ((List.getLast?_eq_some_getLast (List.cons_ne_nil start rest)).symm.trans
    h.last_eq)

/-- All names on a circle, and on the way to it, are aliases of names there, so no other name is
reached. -/
lemma Circles.not_leadsTo (h : Circles aliases start way) (last : String) :
    ¬ LeadsTo aliases start last := by
  have hclosed : ∀ one ∈ way, ∃ next ∈ way, Targets aliases one next := by
    obtain ⟨front, repeated, rfl, -, hrepeated⟩ := h.repeats
    intro one hone
    have hfront : one ∈ front := by
      rcases List.mem_append.mp hone with hfront | hlast
      · exact hfront
      · exact List.mem_singleton.mp hlast ▸ hrepeated
    obtain ⟨before, after, rfl⟩ := List.append_of_mem hfront
    have hchain := h.isChain
    obtain ⟨next, more, hnext⟩ := List.exists_cons_of_ne_nil
      (show after ++ [repeated] ≠ [] by simp)
    rw [List.append_assoc, List.cons_append, hnext] at hchain ⊢
    exact ⟨next, by simp, (List.isChain_append.mp hchain).2.1.rel⟩
  rintro ⟨hreaches, hlast⟩
  have hmem : last ∈ way := by
    clear hlast
    induction hreaches with
    | refl => exact List.mem_of_mem_head? h.head_eq
    | tail _ htarget ih =>
      obtain ⟨next, hnext, htarget'⟩ := hclosed _ ih
      exact htarget.unique htarget' ▸ hnext
  obtain ⟨next, -, htarget⟩ := hclosed last hmem
  cases hlast.symm.trans htarget

/-! ### Looking up -/

/-- A chain of aliases ends at the name that it leads to, or it is a circle and leads nowhere. -/
lemma aliasChain_cases (aliases : NameMap String) (name : String) :
    (∃ last way, aliasChain aliases name = .ok (last, way) ∧ LeadsTo aliases name last ∧
        Passes aliases name last way) ∨
      ∃ way, aliasChain aliases name = .error way ∧ (∀ last, ¬ LeadsTo aliases name last) ∧
        Circles aliases name way := by
  rcases (ends_aliasChain aliases name).cases (passes_start aliases name) with
    ⟨last, way, hchain, hlast, hpasses⟩ | ⟨way, hchain, hcircles⟩
  · exact .inl ⟨last, way, hchain, hpasses.leadsTo hlast, hpasses⟩
  · exact .inr ⟨way, hchain, hcircles.not_leadsTo, hcircles⟩

/-- What is found where the aliases end: the config of the name, or the fallback where it may stand
in for a missing one. -/
def endOf (registry : Registry) (last : String) (allowMissing : Bool) : Option ReleaseConfig :=
  (registry.configs.get? last).or
    (if allowMissing then registry.configs.get? fallbackName else none)

lemma lookup_of_leadsTo (h : LeadsTo registry.aliases name last) (allowMissing : Bool) :
    ∃ way, Passes registry.aliases name last way ∧ registry.lookup name allowMissing =
      (registry.endOf last allowMissing).elim (.error (.configNotFound last way)) .ok := by
  rcases aliasChain_cases registry.aliases name with
    ⟨end', way, hchain, hleads, hpasses⟩ | ⟨_, -, hnowhere, -⟩
  · obtain rfl := h.unique hleads
    refine ⟨way, hpasses, ?_⟩
    simp only [lookup, hchain, endOf]
    cases registry.configs.get? last with
    | some config => rfl
    | none =>
      rw [Option.none_or]
      cases (if allowMissing then registry.configs.get? fallbackName else none) <;> rfl
  · exact absurd h (hnowhere last)

lemma lookup_of_not_leadsTo (h : ∀ last, ¬ LeadsTo registry.aliases name last)
    (allowMissing : Bool) : ∃ way, Circles registry.aliases name way ∧
      registry.lookup name allowMissing = .error (.aliasLoop name way) := by
  rcases aliasChain_cases registry.aliases name with ⟨_, _, -, hleads, -⟩ | ⟨way, hchain, -, hway⟩
  · exact absurd hleads (h _)
  · exact ⟨way, hway, by rw [lookup, hchain]⟩

/-- A name leads to the config of the name at the end of its aliases. -/
lemma configStrict_eq_ok_iff : registry.configStrict name = .ok config ↔
    ∃ last, LeadsTo registry.aliases name last ∧ registry.configs.get? last = some config := by
  by_cases h : ∃ last, LeadsTo registry.aliases name last
  · obtain ⟨last, hleads⟩ := h
    obtain ⟨way, -, hlookup⟩ := lookup_of_leadsTo hleads false
    rw [configStrict, hlookup]
    constructor
    · intro hfound
      refine ⟨last, hleads, ?_⟩
      cases hget : registry.configs.get? last <;> simp_all [endOf]
    · rintro ⟨other, hother, hget⟩
      obtain rfl := hleads.unique hother
      simp [endOf, hget]
  · have hnowhere := not_exists.mp h
    obtain ⟨way, -, hlookup⟩ := lookup_of_not_leadsTo hnowhere false
    rw [configStrict, hlookup]
    constructor
    · intro hfound
      cases hfound
    · rintro ⟨last, hleads, -⟩
      exact absurd hleads (hnowhere last)

/-- How looking a name up comes out, in terms of the aliases. -/
structure LooksUp (registry : Registry) (name : String) (allowMissing : Bool)
    (outcome : Except Error ReleaseConfig) : Prop where
  /-- A loop is reported exactly if the name leads nowhere, also when configs may be missing. -/
  loop_iff : (∃ looping trace, outcome = .error (.aliasLoop looping trace)) ↔
    ∀ last, ¬ LeadsTo registry.aliases name last
  found : ∀ last config, LeadsTo registry.aliases name last →
    registry.configs.get? last = some config → outcome = .ok config
  /-- The fallback stands in for a missing config, if that is allowed and there is one. -/
  fallback : ∀ last config, LeadsTo registry.aliases name last →
    registry.configs.get? last = none → allowMissing = true →
    registry.configs.get? fallbackName = some config → outcome = .ok config
  not_found : ∀ last, LeadsTo registry.aliases name last → registry.configs.get? last = none →
    (allowMissing = true → registry.configs.get? fallbackName = none) →
    ∃ trace, outcome = .error (.configNotFound last trace)
  /-- The names that are reported with a loop: the last one is repeated, and no other is. -/
  loop_trace : ∀ looping trace, outcome = .error (.aliasLoop looping trace) →
    looping = name ∧ Traces registry.aliases name trace ∧
      ∃ front last, trace = front ++ [last] ∧ front.Nodup ∧ last ∈ front
  /-- The names that are reported with a missing config: it is the last one, none is repeated. -/
  not_found_trace : ∀ missing trace, outcome = .error (.configNotFound missing trace) →
    Traces registry.aliases name trace ∧ trace.Nodup ∧ trace.getLast? = some missing

/-- A name that leads somewhere finds the config there or its stand-in, or is reported missing. -/
lemma looksUp_of_leadsTo (h : LeadsTo registry.aliases name last) (allowMissing : Bool) :
    registry.LooksUp name allowMissing (registry.lookup name allowMissing) := by
  obtain ⟨way, hway, hlookup⟩ := lookup_of_leadsTo h allowMissing
  rw [hlookup]
  have hloop (looping : String) (trace : List String) :
      (registry.endOf last allowMissing).elim (.error (.configNotFound last way)) .ok ≠
        (.error (.aliasLoop looping trace) : Except Error ReleaseConfig) := by
    cases registry.endOf last allowMissing <;> simp
  refine ⟨?_, ?_, ?_, ?_, ?_, ?_⟩
  · refine iff_of_false ?_ fun hnowhere => hnowhere last h
    rintro ⟨looping, trace, h⟩
    exact hloop looping trace h
  · intro other config hother hget
    obtain rfl := h.unique hother
    simp [endOf, hget]
  · intro other config hother hget hallow hfallback
    obtain rfl := h.unique hother
    simp [endOf, hget, hallow, hfallback]
  · intro other hother hget hfallback
    obtain rfl := h.unique hother
    refine ⟨way, ?_⟩
    cases allowMissing with
    | false => simp [endOf, hget]
    | true => simp [endOf, hget, hfallback]
  · intro looping trace h
    exact absurd h (hloop looping trace)
  · intro missing trace h
    cases hend : registry.endOf last allowMissing with
    | some config => simp [hend] at h
    | none =>
      rw [hend] at h
      cases h
      exact ⟨hway.toTraces, hway.nodup, hway.last_eq⟩

/-- A name that leads nowhere is reported as a loop. -/
lemma looksUp_of_not_leadsTo (h : ∀ last, ¬ LeadsTo registry.aliases name last)
    (allowMissing : Bool) :
    registry.LooksUp name allowMissing (registry.lookup name allowMissing) := by
  obtain ⟨way, hway, hlookup⟩ := lookup_of_not_leadsTo h allowMissing
  rw [hlookup]
  refine ⟨iff_of_true ⟨name, way, rfl⟩ h, ?_, ?_, ?_, ?_, ?_⟩
  · exact fun last _ hleads => absurd hleads (h last)
  · exact fun last _ hleads => absurd hleads (h last)
  · exact fun last hleads => absurd hleads (h last)
  · rintro _ _ ⟨⟩
    exact ⟨rfl, hway.toTraces, hway.repeats⟩
  · rintro _ _ ⟨⟩

/-- **Looking up a name.**  The loop that follows the aliases ends, whatever they are, and the name
that they lead to, if there is one, decides what is found or reported. -/
theorem looksUp_lookup (registry : Registry) (name : String) (allowMissing : Bool) :
    Ends registry.aliases name [name] (aliasChain registry.aliases name) ∧
      registry.LooksUp name allowMissing (registry.lookup name allowMissing) := by
  refine ⟨ends_aliasChain registry.aliases name, ?_⟩
  by_cases h : ∃ last, LeadsTo registry.aliases name last
  · obtain ⟨last, hleads⟩ := h
    exact looksUp_of_leadsTo hleads allowMissing
  · exact looksUp_of_not_leadsTo (not_exists.mp h) allowMissing

end Registry

end ReleaseFlags
