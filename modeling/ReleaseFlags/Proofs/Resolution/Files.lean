import ReleaseFlags.Proofs.Registry.Files
import ReleaseFlags.Proofs.Resolution.Merges

/-!
# The files that a resolved config depends on

A config depends on its own files and on those of all that it merges.  The files that all configs
share are added to configs without parents only; but from every config that resolves, merging
leads to one of these (`exists_parentless`), so every resolved config depends on them
(`mem_filesUsed_of_generate`).
-/

namespace ReleaseFlags

variable {registry : Registry} {config : ReleaseConfig} {resolved : Resolved}
  {working working' : Working} {file : String}

lemma mem_filesUsed_of_inheritAll {inherited : List (ReleaseConfig × Resolved)}
    (h : working.inheritAll config inherited = .ok working') :
    file ∈ working'.filesUsed.names ↔
      file ∈ working.filesUsed.names ∨ ∃ e ∈ inherited, file ∈ e.2.filesUsed.names := by
  refine foldlM_induction (P := fun done state => file ∈ state.filesUsed.names ↔
    file ∈ working.filesUsed.names ∨ ∃ e ∈ done, file ∈ e.2.filesUsed.names)
    (fun done e state state' _ hok hdone => ?_) h (by simp)
  rw [(inherit_eq_ok hok).2.2, NameSet.mem_union, hdone]
  simp [or_assoc, or_and_right, exists_or]

lemma mem_filesUsed_of_applyOwn (h : registry.applyOwn config working = .ok working') :
    file ∈ working'.filesUsed.names ↔ file ∈ working.filesUsed.names ∨
      registry.parentNames config = [] ∧ file ∈ registry.filesUsed.names := by
  obtain ⟨_, -, -, hfiles⟩ := applyOwn_eq_ok h
  rw [hfiles]
  split
  · next hparents => rw [NameSet.mem_union, and_iff_right (List.isEmpty_iff.mp hparents)]
  · next hparents =>
    have hne : registry.parentNames config ≠ [] := fun hnil => hparents (List.isEmpty_iff.mpr hnil)
    simp [hne]

namespace Registry

open Relation

/-- Where the files of a resolved config come from. -/
lemma Stages.mem_filesUsed {f : ReleaseConfig → Except Error Resolved}
    (s : registry.Stages f config resolved) :
    file ∈ resolved.filesUsed.names ↔
      (file ∈ config.filesUsed.names ∨
        registry.parentNames config = [] ∧ file ∈ registry.filesUsed.names) ∨
      ∃ e ∈ s.inherited, file ∈ e.2.filesUsed.names := by
  rw [(freeze_eq_ok s.resolved_eq).2.1, mem_filesUsed_of_inheritAll s.final_eq,
    mem_filesUsed_of_applyOwn s.own_eq, mem_filesUsed_of_inheritAll s.merged_eq]
  simp only [inherited, List.mem_append, or_and_right, exists_or]
  exact (or_congr_left or_right_comm).trans or_assoc

/-- From every config that resolves, merging leads to one without parents. -/
lemma Coherent.exists_parentless (h : registry.Coherent) (hc : registry.Has config)
    (hr : registry.outcomeOf config = .ok resolved) :
    ∃ other, ReflTransGen registry.Merges config other ∧ registry.parentNames other = [] := by
  refine h.induction_merges (P := fun config _ => ∃ other,
    ReflTransGen registry.Merges config other ∧ registry.parentNames other = [])
    (fun config resolved _ s ih => ?_) hc hr
  cases hnames : registry.parentNames config with
  | nil => exact ⟨config, .refl, hnames⟩
  | cons name rest =>
    have hname : name ∈ registry.parentNames config := hnames ▸ List.mem_cons_self
    obtain ⟨e, he, -⟩ := exists_mem_of_mapM s.parents_eq hname
    have he : e ∈ s.inherited := List.mem_append_left _ he
    obtain ⟨other, hmerges, hother⟩ := ih e he
    exact ⟨other, .head (s.merges_of_mem he) hmerges, hother⟩

/-- The files of a resolved config are those that all configs share, and those of all configs that
it merges, directly or through others. -/
lemma Coherent.mem_filesUsed_iff (h : registry.Coherent) (hc : registry.Has config)
    (hr : registry.outcomeOf config = .ok resolved) :
    file ∈ resolved.filesUsed.names ↔ file ∈ registry.filesUsed.names ∨
      ∃ other, ReflTransGen registry.Merges config other ∧ file ∈ other.filesUsed.names := by
  rw [h.exists_merges_iff (P := fun resolved => file ∈ resolved.filesUsed.names)
    (fun _ _ _ s => s.mem_filesUsed) hc hr]
  constructor
  · rintro ⟨other, hmerges, hfile | ⟨-, hfile⟩⟩
    · exact .inr ⟨other, hmerges, hfile⟩
    · exact .inl hfile
  · rintro (hfile | ⟨other, hmerges, hfile⟩)
    · obtain ⟨other, hmerges, hparents⟩ := h.exists_parentless hc hr
      exact ⟨other, hmerges, .inr ⟨hparents, hfile⟩⟩
    · exact ⟨other, hmerges, .inl hfile⟩

/-- The files that a resolved config depends on are the map and declaration files of all config
directories, and the contribution and value files of every config that it merges, directly or
through others. -/
theorem mem_filesUsed_of_generate {source : Source} {directories : List String}
    {scanned : Registry} (hscan : source.scan directories = .ok scanned) (allowMissing : Bool)
    (options : Options) (calls : List Call) {target : String} :
    let reached := ({ scanned with allowMissing }.setOptions options).after calls
    ((generate target).run reached).1 = .ok resolved →
      ∃ config, reached.configStrict target = .ok config ∧
        (∀ file, file ∈ resolved.filesUsed.names ↔ file ∈ reached.filesUsed.names ∨
          ∃ other, ReflTransGen reached.Merges config other ∧ file ∈ other.filesUsed.names) ∧
        (∀ file, file ∈ reached.filesUsed.names ↔
          ∃ name ∈ directories, source.Shares name file) ∧
        ∀ other, ReflTransGen reached.Merges config other →
          ∀ file, file ∈ other.filesUsed.names ↔
            ∃ c ∈ other.contributions, file = c.path ∨ file ∈ c.values.map Assignment.path := by
  intro reached hr
  have hstart := ((scanned_of_scan hscan).coherent allowMissing).setOptions options
  have hreached : reached.Reached :=
    ⟨source, directories, scanned, allowMissing, options, calls, hscan, rfl⟩
  have hcoherent := hreached.coherent
  obtain ⟨config, hconfig, hc, hr⟩ := hcoherent.exists_of_generate hr
  refine ⟨config, hconfig, fun file => hcoherent.mem_filesUsed_iff hc hr, fun file => ?_, ?_⟩
  · -- calls leave the files as the scan found them
    have hfiles := congrArg Registry.filesUsed (hstart.after_forget calls)
    exact (iff_of_eq (congrArg (fun used : NameSet => file ∈ used.names) hfiles)).trans
      (source.mem_filesUsed_of_scan hscan)
  · intro other hmerges
    obtain ⟨hhas, -⟩ := hcoherent.exists_outcome_of_merges hc hr hmerges
    exact (hreached.assembled hhas).mem_files

/-- A resolved config depends on the files of a config that it inherits. -/
theorem mem_filesUsed_of_generate_layered : Source.layered.scan ["d"] = .ok layers ∧
    ∃ config parent resolved, layered.configStrict "a" = .ok config ∧
      layered.Parent config parent ∧ ((generate "a").run layered).1 = .ok resolved ∧
      ∀ file ∈ parent.filesUsed.names, file ∈ resolved.filesUsed.names := by
  obtain ⟨config, parent, resolved, hconfig, hparent, hrun, -⟩ := layered_shows
  obtain ⟨found, hfound, hfiles, -⟩ :=
    mem_filesUsed_of_generate scan_layered false layeredOptions [] hrun
  obtain rfl : config = found := Except.ok.inj (hconfig.symm.trans hfound)
  exact ⟨scan_layered, config, parent, resolved, hconfig, hparent, hrun, fun file hfile =>
    (hfiles file).mpr (.inr ⟨parent, .single (.inl hparent), hfile⟩)⟩

end Registry

end ReleaseFlags
