import ReleaseFlags.Proofs.Report.Combined
import ReleaseFlags.Proofs.Report.Fragment
import ReleaseFlags.Proofs.Report.PartitionFiles

/-!
# What is written for a registry

An action on a workspace emits outputs for a registry: where it succeeds, all that it does is to put
these files into the tree, one after the other, and to remember resolutions (`Emits`).  Steps that
follow each other emit their outputs in turn (`emits_bind`), and what each report emits depends on
what was read by the scan only, whatever was resolved before.
-/

namespace ReleaseFlags

namespace Workspace

open Registry

variable {α β : Type} {registry : Registry} {action : Action α} {P : α → List Output → Prop}

/-- With any sound cache, an action that succeeds puts some outputs into their files, one after the
other, and changes nothing else but the cache, which stays sound.  What it gives and the outputs are
related. -/
def Emits (registry : Registry) (action : Action α) (P : α → List Output → Prop) : Prop :=
  ∀ cache tree a after, registry.Sound cache →
    action.run ⟨tree, registry.withCache cache⟩ = (.ok a, after) →
      ∃ cache' outputs, registry.Sound cache' ∧ after.registry = registry.withCache cache' ∧
        (Output.putAll outputs).run tree = (.ok (), after.tree) ∧ P a outputs

/-! ### Steps -/

lemma Emits.mono {Q : α → List Output → Prop} (h : Emits registry action P)
    (himp : ∀ a outputs, P a outputs → Q a outputs) : Emits registry action Q := by
  intro cache tree a after hcache hrun
  obtain ⟨cache', outputs, hsound, hregistry, htree, hP⟩ := h cache tree a after hcache hrun
  exact ⟨cache', outputs, hsound, hregistry, htree, himp a outputs hP⟩

lemma emits_pure {a : α} (h : P a []) : Emits registry (pure a) P := by
  intro cache tree _ _ hcache hrun
  cases hrun
  exact ⟨cache, [], hcache, rfl, rfl, h⟩

/-- One step after the other: first the outputs of the one, then those of the other. -/
lemma emits_bind {next : α → Action β} {Q : β → List Output → Prop} (h : Emits registry action P)
    (hnext : ∀ a outputs, P a outputs →
      Emits registry (next a) fun b more => Q b (outputs ++ more)) :
    Emits registry (action >>= next) Q := by
  intro cache tree b after hcache hrun
  obtain ⟨a, ⟨tree₁, _⟩, hfirst, hrest⟩ := exists_of_run_bind_eq_ok hrun
  obtain ⟨cache₁, outputs, hsound₁, rfl, htree₁, hP⟩ := h cache tree a _ hcache hfirst
  obtain ⟨cache₂, more, hsound₂, hregistry, htree₂, hQ⟩ :=
    hnext a outputs hP cache₁ tree₁ b after hsound₁ hrest
  refine ⟨cache₂, outputs ++ more, hsound₂, hregistry, ?_, hQ⟩
  rw [Output.putAll_append, run_bind_of_ok htree₁, htree₂]

lemma emits_get_bind {next : Workspace → Action β} {Q : β → List Output → Prop}
    (h : ∀ cache tree, registry.Sound cache →
      Emits registry (next ⟨tree, registry.withCache cache⟩) Q) :
    Emits registry (get >>= next) Q := by
  intro cache tree b after hcache hrun
  rw [run_get_bind] at hrun
  exact h cache tree hcache cache tree b after hcache hrun

lemma emits_liftExcept {outcome : Except Error α} :
    Emits registry (liftExcept outcome) fun a outputs => outcome = .ok a ∧ outputs = [] := by
  intro cache tree a after hcache hrun
  cases outcome with
  | error e => cases hrun
  | ok found =>
    cases hrun
    exact ⟨cache, [], hcache, rfl, rfl, rfl, rfl⟩

/-- A session answers, and emits nothing. -/
lemma emits_onRegistry {session : Session α} {outcome : Except Error α}
    (h : registry.Answers session outcome) :
    Emits registry (onRegistry session) fun a outputs => outcome = .ok a ∧ outputs = [] := by
  intro cache tree a after hcache hrun
  obtain ⟨cache', hsession, hsound, -⟩ := h cache hcache
  rw [onRegistry, run_get_bind] at hrun
  simp only [hsession] at hrun
  cases outcome with
  | error e => cases hrun
  | ok found =>
    cases hrun
    exact ⟨cache', [], hsound, rfl, rfl, rfl, rfl⟩

/-- What is done to the tree is to put outputs into their files. -/
lemma emits_onTree {action : FileTree.Action α}
    (h : ∀ tree a after, action.run tree = (.ok a, after) →
      ∃ outputs, (Output.putAll outputs).run tree = (.ok (), after) ∧ P a outputs) :
    Emits registry (onTree action) P := by
  intro cache tree a after hcache hrun
  rw [onTree_run] at hrun
  rcases haction : action.run tree with ⟨outcome, tree'⟩
  simp only [haction] at hrun
  cases outcome with
  | error e => cases hrun
  | ok found =>
    cases hrun
    obtain ⟨outputs, htree, hP⟩ := h tree _ tree' haction
    exact ⟨cache, outputs, hcache, rfl, htree, hP⟩

/-- For each item in turn one output, of which the path is given. -/
lemma emits_mapM {step : α → Action Path} {R : α → Output → Prop}
    (h : ∀ a, Emits registry (step a) fun path outputs =>
      ∃ output, outputs = [output] ∧ R a output ∧ path = output.path) (items : List α) :
    Emits registry (items.mapM step) fun paths outputs =>
      List.Forall₂ R items outputs ∧ paths = outputs.map Output.path := by
  induction items with
  | nil => exact emits_pure ⟨.nil, rfl⟩
  | cons a rest ih =>
    rw [List.mapM_cons]
    refine emits_bind (h a) ?_
    rintro path _ ⟨output, rfl, hR, rfl⟩
    refine emits_bind ih ?_
    rintro paths outputs ⟨hall, rfl⟩
    exact emits_pure ⟨by simpa using ⟨hR, hall⟩, by simp⟩

/-- Data is put into its file in the format of the path. -/
lemma emits_save (path : Path) (data : Data) :
    Emits registry (onTree (FileTree.save path data)) fun _ outputs =>
      ∃ output, outputs = [output] ∧ Output.ofData path data = .ok output := by
  refine emits_onTree fun tree _ after hrun => ?_
  cases hcontent : renderFile path data with
  | error e =>
    rw [FileTree.save, hcontent] at hrun
    cases hrun
  | ok content =>
    rw [FileTree.save, hcontent] at hrun
    refine ⟨[⟨path, content, false⟩], ?_, _, rfl, bind_eq_ok.mpr ⟨content, hcontent, rfl⟩⟩
    rw [Output.putAll_singleton]
    exact hrun

end Workspace

open Workspace

variable {registry : Registry} {resolved : Resolved} {name target : String} {path : Path}

/-! ### Reports -/

namespace Makefile

/-- The output is the fragment of a config, for the name that the user asked for. -/
structure IsFragment (registry : Registry) (name target : String) (path : Path) (output : Output) :
    Prop where
  path_eq : output.path = path
  whenChanged_eq : output.whenChanged = true
  render_eq : ((render name target).run registry).1 = .ok output.content

lemma emits_write (h : registry.Coherent) (name target : String) (path : Path) :
    Emits registry (write name target path) fun _ outputs =>
      ∃ output, outputs = [output] ∧ IsFragment registry name target path output := by
  have hanswers := answers_render h name target
  refine emits_bind (emits_onRegistry hanswers) ?_
  rintro content _ ⟨hcontent, rfl⟩
  refine emits_onTree fun tree changed after hrun => ?_
  refine ⟨[⟨path, content, true⟩], ?_, _, rfl, rfl, rfl, ?_⟩
  · rw [Output.putAll_singleton, Output.put, if_pos rfl, run_bind_of_ok hrun]
    rfl
  · rw [hanswers.fst_run h, hcontent]

end Makefile

lemma PartitionReport.emits_writeAll (h : registry.Reached)
    (hr : registry.resolution name = .ok resolved) (directory : Path) :
    Emits registry (writeAll resolved directory) fun paths outputs =>
      outputs = files resolved directory ∧ paths = outputs.map Output.path := by
  rw [h.writeAll_eq hr]
  have hput : Emits registry (onTree (Output.putAll (files resolved directory))) fun _ outputs =>
      outputs = files resolved directory :=
    emits_onTree fun tree _ after hrun => ⟨_, hrun, rfl⟩
  refine emits_bind hput ?_
  rintro _ _ rfl
  exact emits_pure ⟨by simp, by simp⟩

namespace ContributionReports

/-- What is remembered of the configs is reported, if it is remembered of all of them. -/
lemma listsContributions_of_ofRegistry (h : registry.Coherent) {cache : Cache}
    (hsound : registry.Sound cache) {contributions : ContributionReports}
    (hok : ofRegistry (registry.withCache cache) = .ok contributions) :
    registry.ListsContributions contributions := by
  have hall (name : String) (hname : name ∈ registry.configs.names) :
      ∃ resolved, (registry.withCache cache).resolvedStrict name = .ok resolved := by
    obtain ⟨config, hconfig⟩ := NameMap.mem_names.mp hname
    obtain rfl := h.named name config hconfig
    obtain ⟨reports, hreports, -⟩ := bind_eq_ok.mp hok
    obtain ⟨_, -, hfound⟩ := exists_mem_of_mapM hreports (NameMap.mem_values.mpr ⟨_, hconfig⟩)
    unfold Registry.resolved? at hfound
    split at hfound
    · next resolved hresolved =>
      split at hresolved
      · next found hname =>
        exact ⟨resolved, Registry.resolvedStrict_eq_ok.mpr ⟨found, hname, hresolved⟩⟩
      · cases hresolved
    · cases hfound
  obtain ⟨found, hfound, hlists⟩ := h.exists_ofRegistry hsound hall
  obtain rfl := Except.ok.inj (hok.symm.trans hfound)
  exact hlists

lemma emits_write (h : registry.Coherent) (path : Path) :
    Emits registry (write path) fun _ outputs => ∃ contributions output,
      registry.ListsContributions contributions ∧ outputs = [output] ∧
        Output.ofData path contributions.data = .ok output := by
  refine emits_get_bind fun cache tree hsound => ?_
  refine emits_bind emits_liftExcept ?_
  rintro contributions _ ⟨hcontributions, rfl⟩
  refine (emits_save path contributions.data).mono ?_
  rintro _ _ ⟨output, rfl, houtput⟩
  exact ⟨contributions, output, listsContributions_of_ofRegistry h hsound hcontributions, rfl,
    houtput⟩

end ContributionReports

/-- The graph shows no resolutions. -/
lemma InheritanceGraph.emits_write (path : Path) :
    Emits registry (write path) fun _ outputs => outputs = [⟨path, render registry, false⟩] := by
  refine emits_get_bind fun cache tree _ => ?_
  refine emits_onTree fun tree _ after hrun => ⟨_, ?_, rfl⟩
  rw [Output.putAll_singleton]
  exact hrun

end ReleaseFlags
