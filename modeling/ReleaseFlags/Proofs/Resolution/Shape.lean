import Mathlib.Data.List.Sort
import ReleaseFlags.Proofs.Registry.WellFormed
import ReleaseFlags.Proofs.Resolution.Failures

/-!
# Resolved configs keep the shape of the declared flags

The flags of a resolved config are the declared ones, each with changes behind its declaration
(`Resolved.KeepsShape`).  All that is merged has this shape, so no flag is missing there; and the
indices of the flags stay places in the list of directories, so the directory that an error names is
the one that declares the flag (`shape_of_generate`).
-/

namespace ReleaseFlags

variable {registry : Registry} {config : ReleaseConfig} {resolved : Resolved} {flags flags' : Flags}

/-- The resolved config has the declared flags.  Each has its declaration still, and its traces
start with those of the declaration. -/
structure Resolved.KeepsShape (flags : Flags) (resolved : Resolved) : Prop where
  names_eq : resolved.flags.names = flags.names
  /-- The report lists all flags by increasing name. -/
  report_names : resolved.report.flags.map (fun report => report.declaration.name) = flags.names
  report_increases :
    (resolved.report.flags.map fun report => report.declaration.name).Pairwise (· < ·)
  flag : ∀ name flag, resolved.flags.get? name = some flag →
    ∃ declared, flags.get? name = some declared ∧ flag.declaration = declared.declaration ∧
      flag.declarationIndex = declared.declarationIndex ∧
      (∃ first, declared.traces.head? = some first ∧ flag.traces.head? = some first) ∧
      declared.traces <+: flag.traces

/-- Later flags have the same names. -/
lemma Flags.Becomes.names_eq (h : flags.Becomes flags') : flags'.names = flags.names := by
  refine List.Pairwise.eq_of_mem_iff flags'.pairwise_names flags.pairwise_names fun name => ?_
  rw [NameMap.mem_names, NameMap.mem_names]
  constructor
  · rintro ⟨later, hlater⟩
    obtain ⟨flag, hflag, -⟩ := h.exists_before hlater
    exact ⟨flag, hflag⟩
  · rintro ⟨flag, hflag⟩
    obtain ⟨later, hlater, -⟩ := h.exists_after hflag
    exact ⟨later, hlater⟩

namespace Registry

/-- The flags of a resolved config keep the shape of the declared ones. -/
lemma Reached.keepsShape (h : registry.Reached) (hr : registry.Resolves config resolved) :
    resolved.KeepsShape registry.flags := by
  have hbecomes := hr.becomes
  have hnames := hbecomes.names_eq
  have hreport : resolved.report.flags.map (fun report => report.declaration.name) =
      registry.flags.names := by
    rw [hr.report_flags, List.map_map, ← hnames]
    exact NameMap.map_values (f := FlagState.name)
      (hbecomes.sameDeclarations.named fun _ _ => h.flags_named)
  refine ⟨hnames, hreport, ?_, fun name flag hflag => ?_⟩
  · rw [hreport]
    exact registry.flags.pairwise_names
  · obtain ⟨declared, hdeclared, hlater⟩ := hbecomes.exists_before hflag
    obtain ⟨source, htraces⟩ := (h.flags_declared hdeclared).traces_eq
    refine ⟨declared, hdeclared, hlater.declaration, hlater.declarationIndex, ?_, hlater.traces⟩
    obtain ⟨more, hmore⟩ := hlater.traces
    rw [← hmore, htraces]
    exact ⟨_, rfl, rfl⟩

/-- The indices of a registry that is used are in order. -/
lemma Reached.indexed (h : registry.Reached) : registry.Indexed := by
  obtain ⟨source, directories, scanned, allowMissing, options, calls, hscan, rfl⟩ := h
  have hcoherent := ((scanned_of_scan hscan).coherent allowMissing).setOptions options
  -- calls change nothing that the indices are about
  have hforgotten : Indexed
      (({ scanned with allowMissing }.setOptions options).after calls).forget := by
    rw [hcoherent.after_forget calls]
    exact { indexed_of_scan hscan with }
  exact { hforgotten with }

/-- The error is none of the internal ones, and the directory that it names declares the flag. -/
structure SoundError (registry : Registry) (e : Error) : Prop where
  not_missing : ∀ flag parent, e ≠ .missingInheritedFlag flag parent
  not_mismatch : ∀ expected found path, e ≠ .flag (.nameMismatch expected found path)
  declared_in : ∀ flag directory path, e = .setBeforeDeclare flag directory path →
    ∃ declared index, registry.flags.get? flag = some declared ∧
      declared.declarationIndex = some index ∧ registry.directories[index]? = some directory

lemma soundError_of_lookup {name : String} {allowMissing : Bool} {e : Error}
    (h : registry.lookup name allowMissing = .error e) : registry.SoundError e := by
  rcases lookup_eq_error h with ⟨trace, rfl⟩ | ⟨missing, trace, rfl⟩
  · exact ⟨by simp, by simp, by simp⟩
  · exact ⟨by simp, by simp, by simp⟩

/-- The index of a flag is the place of a directory. -/
lemma Reached.index_lt (h : registry.Reached) {name : String} {flag : FlagState} {index : Nat}
    (hflag : registry.flags.get? name = some flag) (hindex : flag.declarationIndex = some index) :
    index < registry.directories.length := by
  by_cases hname : name = KnownFlag.aconfigValueSets
  · -- the flag of the engine has no index
    rw [hname, h.value_sets] at hflag
    obtain rfl := Option.some.inj hflag
    cases hindex
  · obtain ⟨index', hlt, hindex'⟩ := (h.indexed.flags_below name flag hflag hname).index_lt
    obtain rfl : index = index' := Option.some.inj (hindex.symm.trans hindex')
    exact hlt

lemma Reached.soundError_of_violation (h : registry.Reached) {e : Error}
    (hviolation : registry.Violation config e) : registry.SoundError e := by
  cases hviolation with
  | parent hname hlookup => exact soundError_of_lookup hlookup
  | @early c value flag index hc hvalue hflag hindex hlt =>
    refine ⟨by simp, by simp, ?_⟩
    rintro _ _ _ ⟨⟩
    have hbound := h.index_lt hflag hindex
    refine ⟨flag, index, hflag, hindex, ?_⟩
    rw [List.getElem?_eq_getElem hbound, Option.getD_some]
  | _ => exact ⟨by simp, by simp, by simp⟩

/-- The index of a declared flag is always the place of a directory.  Resolving a name or alias
changes no declared flag, whatever comes of it.  If it fails, the error is none of the internal
ones.  If it succeeds, the result keeps the shape of the declared flags, and so does everything that
is remembered, also after a failure. -/
theorem shape_of_generate (h : registry.Reached) (name : String) :
    (∀ key flag index, registry.flags.get? key = some flag →
      flag.declarationIndex = some index → index < registry.directories.length) ∧
    ((generate name).run registry).2.flags = registry.flags ∧
    (∀ e, ((generate name).run registry).1 = .error e → registry.SoundError e) ∧
    (∀ resolved, ((generate name).run registry).1 = .ok resolved →
      resolved.KeepsShape registry.flags) ∧
    ∀ key resolved, ((generate name).run registry).2.resolved.get? key = some resolved →
      resolved.KeepsShape registry.flags := by
  have hcoherent := h.coherent
  obtain ⟨cache, hanswer, hsound, -⟩ := answers_generate hcoherent name _ hcoherent.sound
  have hrun : (generate name).run registry =
      (registry.resolution name, registry.withCache cache) := hanswer
  rw [hrun]
  refine ⟨fun _ _ _ => h.index_lt, rfl, fun e he => ?_, fun resolved hr => ?_,
    fun key resolved hget => ?_⟩
  · rcases bind_eq_error.mp he with he | ⟨config, -, he⟩
    · exact soundError_of_lookup he
    · rcases resolveAnew_eq_error (fun _ _ => h.flags_named) he with
        ⟨looping, rfl⟩ | ⟨other, -, hviolation⟩
      · exact ⟨by simp, by simp, by simp⟩
      · exact h.soundError_of_violation hviolation
  · obtain ⟨config, -, hr⟩ := bind_eq_ok.mp hr
    exact h.keepsShape (.of_ok hr)
  · obtain ⟨config, -, -, hresolves⟩ := hsound key resolved hget
    exact h.keepsShape hresolves

theorem shape_of_generate_layered : layered.Reached ∧
    ∃ resolved, ((generate "a").run layered).1 = .ok resolved ∧
      resolved.KeepsShape layered.flags := by
  obtain ⟨_, _, resolved, -, -, hrun, -⟩ := layered_shows
  exact ⟨layered_reached, resolved, hrun,
    (shape_of_generate layered_reached "a").2.2.2.1 resolved hrun⟩

end Registry

end ReleaseFlags
