import ReleaseFlags.Proofs.Resolution.Graph

/-!
# What compiling a config does

A config that is compiled goes through four stages: its parents are merged, its own settings
are applied, the build variant config is merged if the flags ask for it, and the result is
frozen.  `stages_of_compile` takes a compilation that succeeds apart, and `plan_raises` says that
one that fails never reports a loop of its own accord.
-/

namespace ReleaseFlags

/-! ### Success -/

/-- Merges configs, each with its resolution, one after the other. -/
def Working.inheritAll (config : ReleaseConfig) (working : Working)
    (inherited : List (ReleaseConfig × Resolved)) : Except Error Working :=
  inherited.foldlM (fun working e => working.inherit config e.1 e.2) working

namespace Registry

variable {registry : Registry} {config other : ReleaseConfig} {resolved : Resolved}
  {f g : ReleaseConfig → Except Error Resolved} {working working' : Working} {name : String}

/-- The config that the name of a parent leads to, with its resolution. -/
def findParent (registry : Registry) (f : ReleaseConfig → Except Error Resolved)
    (config : ReleaseConfig) (name : String) : Except Error (ReleaseConfig × Resolved) := do
  let parent ← registry.parentOf config name
  return (parent, ← f parent)

/-- The state of a config when its parents are merged and its own settings are applied. -/
def ownState (registry : Registry) (f : ReleaseConfig → Except Error Resolved)
    (config : ReleaseConfig) : Except Error Working := do
  let merged ← (registry.parentNames config).foldlM (registry.inheritParent f config)
    ⟨registry.flags, config.filesUsed⟩
  registry.applyOwn config merged

/-- A compilation that succeeds, stage by stage. -/
structure Stages (registry : Registry) (f : ReleaseConfig → Except Error Resolved)
    (config : ReleaseConfig) (resolved : Resolved) where
  /-- The parents in order, each with its resolution. -/
  parents : List (ReleaseConfig × Resolved)
  /-- The state when the parents are merged. -/
  merged : Working
  /-- The state when the own settings are applied too. -/
  own : Working
  /-- The build variant config with its resolution, if it is applied. -/
  applied : Option (ReleaseConfig × Resolved)
  /-- The state when everything is merged. -/
  final : Working
  parents_eq : (registry.parentNames config).mapM (registry.findParent f config) = .ok parents
  merged_eq : Working.inheritAll config ⟨registry.flags, config.filesUsed⟩ parents = .ok merged
  own_eq : registry.applyOwn config merged = .ok own
  applied_eq : registry.variantFor config own.flags = .ok (applied.map Prod.fst)
  applied_ok : ∀ e ∈ applied, f e.1 = .ok e.2
  final_eq : own.inheritAll config applied.toList = .ok final
  resolved_eq : final.freeze registry config (registry.parentNames config) = .ok resolved

lemma inheritParent_eq_ok : registry.inheritParent f config working name = .ok working' ↔
    ∃ parent inherited, registry.parentOf config name = .ok parent ∧ f parent = .ok inherited ∧
      working.inherit config parent inherited = .ok working' := by
  constructor
  · intro h
    obtain ⟨parent, hparent, h⟩ := bind_eq_ok.mp h
    obtain ⟨inherited, hinherited, h⟩ := bind_eq_ok.mp h
    exact ⟨parent, inherited, hparent, hinherited, h⟩
  · rintro ⟨parent, inherited, hparent, hinherited, h⟩
    exact bind_eq_ok.mpr ⟨parent, hparent, bind_eq_ok.mpr ⟨inherited, hinherited, h⟩⟩

lemma findParent_eq_ok {e : ReleaseConfig × Resolved} :
    registry.findParent f config name = .ok e ↔
      registry.parentOf config name = .ok e.1 ∧ f e.1 = .ok e.2 := by
  constructor
  · intro h
    obtain ⟨parent, hparent, h⟩ := bind_eq_ok.mp h
    obtain ⟨inherited, hinherited, h⟩ := bind_eq_ok.mp h
    cases h
    exact ⟨hparent, hinherited⟩
  · rintro ⟨hparent, hinherited⟩
    exact bind_eq_ok.mpr ⟨e.1, hparent, bind_eq_ok.mpr ⟨e.2, hinherited, rfl⟩⟩

/-- Finding and merging the parents in turns is finding all of them first. -/
lemma inheritParents_eq_ok {names : List String} :
    names.foldlM (registry.inheritParent f config) working = .ok working' ↔
      ∃ parents, names.mapM (registry.findParent f config) = .ok parents ∧
        working.inheritAll config parents = .ok working' := by
  induction names generalizing working with
  | nil =>
    constructor
    · intro h
      exact ⟨[], rfl, h⟩
    · rintro ⟨_, ⟨⟩, h⟩
      exact h
  | cons first rest ih =>
    rw [List.foldlM_cons, List.mapM_cons]
    constructor
    · intro h
      obtain ⟨between, hfirst, h⟩ := bind_eq_ok.mp h
      obtain ⟨parent, inherited, hparent, hinherited, hinherit⟩ := inheritParent_eq_ok.mp hfirst
      obtain ⟨parents, hparents, hrest⟩ := ih.mp h
      have hfound : registry.findParent f config first = .ok (parent, inherited) :=
        findParent_eq_ok.mpr ⟨hparent, hinherited⟩
      exact ⟨(parent, inherited) :: parents,
        bind_eq_ok.mpr ⟨_, hfound, bind_eq_ok.mpr ⟨parents, hparents, rfl⟩⟩,
        bind_eq_ok.mpr ⟨between, hinherit, hrest⟩⟩
    · rintro ⟨found, hfound, h⟩
      obtain ⟨e, he, hfound⟩ := bind_eq_ok.mp hfound
      obtain ⟨parents, hparents, hfound⟩ := bind_eq_ok.mp hfound
      cases hfound
      obtain ⟨hparent, hinherited⟩ := findParent_eq_ok.mp he
      obtain ⟨between, hinherit, hrest⟩ := bind_eq_ok.mp h
      exact bind_eq_ok.mpr ⟨between,
        inheritParent_eq_ok.mpr ⟨e.1, e.2, hparent, hinherited, hinherit⟩,
        ih.mpr ⟨parents, hparents, hrest⟩⟩

/-- The build variant config is merged like a parent, if there is one. -/
lemma inheritVariant_eq_ok {own final : Working}
    (h : registry.inheritVariant f config own = .ok final) :
    ∃ applied : Option (ReleaseConfig × Resolved),
      registry.variantFor config own.flags = .ok (applied.map Prod.fst) ∧
        (∀ e ∈ applied, f e.1 = .ok e.2) ∧ own.inheritAll config applied.toList = .ok final := by
  obtain ⟨found, hfound, h⟩ := bind_eq_ok.mp h
  cases found with
  | none =>
    cases h
    exact ⟨none, hfound, by simp, rfl⟩
  | some variant =>
    obtain ⟨inherited, hinherited, h⟩ := bind_eq_ok.mp h
    refine ⟨some (variant, inherited), hfound, ?_, bind_eq_ok.mpr ⟨final, h, rfl⟩⟩
    rintro _ ⟨⟩
    exact hinherited

/-- A compilation that succeeds has its stages. -/
theorem stages_of_compile (h : registry.compile f config = .ok resolved) :
    Nonempty (registry.Stages f config resolved) := by
  obtain ⟨merged, hmerged, h⟩ := bind_eq_ok.mp h
  obtain ⟨own, hown, h⟩ := bind_eq_ok.mp h
  obtain ⟨final, hfinal, h⟩ := bind_eq_ok.mp h
  obtain ⟨parents, hparents, hmerged⟩ := inheritParents_eq_ok.mp hmerged
  obtain ⟨applied, happlied, hok, hfinal⟩ := inheritVariant_eq_ok hfinal
  exact ⟨⟨parents, merged, own, applied, final, hparents, hmerged, hown, happlied, hok, hfinal, h⟩⟩

namespace Stages

variable (s : registry.Stages f config resolved)

/-- All configs that are merged, each with its resolution. -/
def inherited : List (ReleaseConfig × Resolved) := s.parents ++ s.applied.toList

lemma ownState_eq : registry.ownState f config = .ok s.own :=
  bind_eq_ok.mpr ⟨s.merged, inheritParents_eq_ok.mpr ⟨s.parents, s.parents_eq, s.merged_eq⟩,
    s.own_eq⟩

lemma parentOf_of_mem {e : ReleaseConfig × Resolved} (he : e ∈ s.parents) :
    ∃ name ∈ registry.parentNames config, registry.parentOf config name = .ok e.1 := by
  obtain ⟨name, hname, hfound⟩ := exists_of_mem_mapM s.parents_eq he
  exact ⟨name, hname, (findParent_eq_ok.mp hfound).1⟩

/-- What is merged is what the compilation was told of it. -/
lemma ok_of_mem {e : ReleaseConfig × Resolved} (he : e ∈ s.inherited) : f e.1 = .ok e.2 := by
  rcases List.mem_append.mp he with he | he
  · obtain ⟨name, -, hfound⟩ := exists_of_mem_mapM s.parents_eq he
    exact (findParent_eq_ok.mp hfound).2
  · exact s.applied_ok e (Option.mem_toList.mp he)

lemma has_of_mem (hn : registry.Named) {e : ReleaseConfig × Resolved} (he : e ∈ s.inherited) :
    registry.Has e.1 := by
  rcases List.mem_append.mp he with he | he
  · obtain ⟨name, -, hparent⟩ := s.parentOf_of_mem he
    exact has_of_lookup hn (config_of_parentOf hparent)
  · have happlied := s.applied_eq
    rw [Option.mem_toList.mp he] at happlied
    obtain ⟨_, -, -, -, hchosen⟩ := (variantFor_eq_some_iff.mp happlied).chosen
    exact has_of_lookup hn hchosen

/-- The parents are the effective parents of the config. -/
lemma exists_mem_parents_iff :
    (∃ inherited, (other, inherited) ∈ s.parents) ↔ registry.Parent config other := by
  constructor
  · rintro ⟨inherited, he⟩
    obtain ⟨name, hname, hparent⟩ := s.parentOf_of_mem he
    exact ⟨name, hname, config_of_parentOf hparent⟩
  · rintro ⟨name, hname, hother⟩
    obtain ⟨⟨parent, inherited⟩, he, hfound⟩ := exists_mem_of_mapM s.parents_eq hname
    have hparent := config_of_parentOf (findParent_eq_ok.mp hfound).1
    obtain rfl : parent = other := Except.ok.inj (hparent.symm.trans hother)
    exact ⟨inherited, he⟩

lemma resolutions_eq : (registry.parentNames config).mapM
    (fun name => do f (← registry.config name)) = .ok (s.parents.map Prod.snd) := by
  refine mapM_map_eq_ok s.parents_eq fun name _ e he => ?_
  obtain ⟨hparent, hinherited⟩ := findParent_eq_ok.mp he
  exact bind_eq_ok.mpr ⟨e.1, config_of_parentOf hparent, hinherited⟩

/-- The build variant config is applied to the flags that the own settings lead to. -/
lemma exists_eq_applied_iff :
    (∃ inherited, s.applied = some (other, inherited)) ↔
      registry.Applies config s.own.flags other := by
  have happlied := s.applied_eq
  rw [← variantFor_eq_some_iff, happlied]
  cases s.applied with
  | none => simp
  | some e => simp [Prod.ext_iff, eq_comm]

/-- The resolution of the build variant config is there exactly if it is applied. -/
lemma applied_or :
    s.applied.map Prod.snd = none ∧ (∀ variant, ¬ registry.Applies config s.own.flags variant) ∨
      ∃ variant inherited, s.applied.map Prod.snd = some inherited ∧
        registry.Applies config s.own.flags variant ∧ f variant = .ok inherited := by
  cases happlied : s.applied with
  | none =>
    refine .inl ⟨rfl, fun variant happlies => ?_⟩
    obtain ⟨_, hsome⟩ := s.exists_eq_applied_iff.mpr happlies
    rw [happlied] at hsome
    cases hsome
  | some e =>
    exact .inr ⟨e.1, e.2, rfl, s.exists_eq_applied_iff.mp ⟨e.2, happlied⟩, s.applied_ok e happlied⟩

/-- The same stages are gone through with any function that repeats what was said of configs of
the registry. -/
def mono (hn : registry.Named)
    (hfg : ∀ other r, registry.Has other → f other = .ok r → g other = .ok r) :
    registry.Stages g config resolved :=
  { s with
    parents_eq := by
      have hfound : ∀ name ∈ registry.parentNames config, ∀ e,
          registry.findParent f config name = .ok e →
            registry.findParent g config name = .ok (id e) := by
        intro name _ e he
        obtain ⟨hparent, hinherited⟩ := findParent_eq_ok.mp he
        have hhas := has_of_lookup hn (config_of_parentOf hparent)
        exact findParent_eq_ok.mpr ⟨hparent, hfg _ _ hhas hinherited⟩
      rw [mapM_map_eq_ok s.parents_eq hfound, List.map_id]
    applied_ok := fun e he => hfg e.1 e.2
      (s.has_of_mem hn (List.mem_append_right _ (Option.mem_toList.mpr he))) (s.applied_ok e he) }

end Stages

/-- A config is resolved only after all its parents. -/
lemma exists_ok_of_parent (h : registry.compile f config = .ok resolved)
    (hparent : registry.Parent config other) : ∃ inherited, f other = .ok inherited := by
  obtain ⟨s⟩ := stages_of_compile h
  obtain ⟨inherited, he⟩ := s.exists_mem_parents_iff.mpr hparent
  exact ⟨inherited, s.ok_of_mem (List.mem_append_left _ he)⟩

end Registry

/-! ### Failure -/

/-- The error does not report a loop of inheritance. -/
def Error.NoLoop (e : Error) : Prop := ∀ name, e ≠ .inheritanceLoop name

lemma raises_lookup (registry : Registry) (name : String) (allowMissing : Bool) :
    Raises Error.NoLoop (registry.lookup name allowMissing) := by
  intro e h
  rcases Registry.lookup_eq_error h with ⟨trace, rfl⟩ | ⟨missing, trace, rfl⟩
  · simp [Error.NoLoop]
  · simp [Error.NoLoop]

lemma raises_parentOf (registry : Registry) (config : ReleaseConfig) (name : String) :
    Raises Error.NoLoop (registry.parentOf config name) := by
  simp only [Registry.parentOf]
  split
  · simp [Error.NoLoop]
  · exact raises_lookup registry name _

lemma raises_inherit (working : Working) (config parent : ReleaseConfig) (resolved : Resolved) :
    Raises Error.NoLoop (working.inherit config parent resolved) := by
  have hflags : Raises Error.NoLoop
      (resolved.flags.values.foldlM (Working.inheritFlag parent.name) working.flags) := by
    refine raises_foldlM (fun flags inherited => ?_) _ _
    simp only [Working.inheritFlag]
    split
    · simp [Error.NoLoop]
    · exact raises_ok _
  simp only [Working.inherit]
  split
  · exact raises_bind (by simp [Error.NoLoop]) fun _ => raises_bind hflags fun _ => raises_pure _
  · exact raises_bind hflags fun _ => raises_pure _

lemma raises_assign (flag : FlagState) (a : Assignment) :
    Raises Error.NoLoop ((flag.assign a).mapError .flag) :=
  raises_mapError fun e => by simp [Error.NoLoop]

lemma raises_checkMaySet (registry : Registry) (config : ReleaseConfig) (c : Contribution)
    (flag : FlagState) (value : Assignment) :
    Raises Error.NoLoop (c.checkMaySet registry config flag value) := by
  have hworkflow : Raises Error.NoLoop (if config.name = rootName ∧
      flag.declaration.workflow ≠ .manual then throw (.nonManualInRoot value.name value.path)
        else pure () : Except Error Unit) := by
    split
    · simp [Error.NoLoop]
    · exact raises_pure _
  simp only [Contribution.checkMaySet]
  split
  · split
    · exact raises_bind (by simp [Error.NoLoop]) fun _ => hworkflow
    · exact hworkflow
  · exact hworkflow

lemma raises_applyOwn (registry : Registry) (config : ReleaseConfig) (working : Working) :
    Raises Error.NoLoop (registry.applyOwn config working) := by
  have hversion : Raises Error.NoLoop (config.setPlatformVersion working.flags) := by
    simp only [ReleaseConfig.setPlatformVersion]
    split
    · exact raises_ok _
    · split
      · exact raises_ok _
      · split
        · exact raises_ok _
        · exact raises_bind (raises_assign _ _) fun _ => raises_pure _
  have hvalue (c : Contribution) (flags : Flags) (value : Assignment) :
      Raises Error.NoLoop (c.applyValue registry config flags value) := by
    simp only [Contribution.applyValue]
    split
    · simp [Error.NoLoop]
    · refine raises_bind ?_ fun _ => raises_bind (raises_assign _ _) fun _ => raises_pure _
      exact raises_checkMaySet registry config c _ value
  have hcontribution (flags : Flags) (c : Contribution) :
      Raises Error.NoLoop (c.apply registry config flags) := by
    refine raises_bind ?_ fun _ => raises_foldlM (hvalue c) _ _
    simp only [Contribution.checkFlagsOnly]
    split
    · split
      · simp [Error.NoLoop]
      · exact raises_ok _
    · exact raises_ok _
  refine raises_bind hversion fun flags => raises_bind ?_ fun _ => raises_pure _
  exact raises_foldlM hcontribution _ _

lemma raises_variantFor (registry : Registry) (config : ReleaseConfig) (flags : Flags) :
    Raises Error.NoLoop (registry.variantFor config flags) := by
  simp only [Registry.variantFor, Registry.variantOf]
  split
  · split
    · exact raises_ok _
    · split
      · exact raises_ok _
      · split
        · split
          · exact raises_ok _
          · simp [Error.NoLoop]
        · split
          · exact raises_ok _
          · split
            · exact raises_ok _
            · simp [Error.NoLoop]
  · exact raises_ok _

lemma raises_freeze (working : Working) (registry : Registry) (config : ReleaseConfig)
    (inherits : List String) : Raises Error.NoLoop (working.freeze registry config inherits) := by
  refine raises_bind (raises_bind ?_ fun _ => raises_pure _) fun _ => raises_pure _
  refine raises_foldlM (fun first directory => raises_foldlM (fun first dirPrefix => ?_) _ _) _ _
  simp only [checkPrefix]
  split
  · exact raises_ok _
  · split
    · exact raises_ok _
    · split
      · exact raises_ok _
      · simp [Error.NoLoop]

/-- Compiling reports no loop of its own accord: it only passes on what it is told. -/
theorem plan_raises (registry : Registry) (config : ReleaseConfig) :
    (registry.plan config).Raises Error.NoLoop := by
  refine Plan.plan_raises_bind (Plan.plan_raises_foldlM (fun working name => ?_) _ _) fun merged =>
    Plan.plan_raises_bind (raises_applyOwn registry config merged) fun own =>
      Plan.plan_raises_bind (Plan.plan_raises_bind (raises_variantFor registry config own.flags) ?_)
        fun final => raises_freeze final registry config _
  · exact Plan.plan_raises_bind (raises_parentOf registry config name) fun parent =>
      fun resolved => raises_inherit working config parent resolved
  · intro found
    cases found with
    | none => exact raises_pure _
    | some variant => exact fun resolved => raises_inherit own config variant resolved

end ReleaseFlags
