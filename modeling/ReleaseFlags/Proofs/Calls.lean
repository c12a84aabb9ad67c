import ReleaseFlags.Proofs.Resolution.Session
import ReleaseFlags.Report.Makefile

/-!
# Calls in any order

A registry that was read from config directories is used through four calls, in any order
and any number of times.  Each call keeps a registry coherent, also a call that fails, and
its reply depends on the settings of the registry only (`perform_run`).  So what is
remembered between calls can never be told from the replies.
-/

namespace ReleaseFlags

/-- A call on a registry. -/
inductive Call where
  /-- Resolve the config of a name or alias. -/
  | generate (name : String)
  /-- Report on all configs, the one of a name or alias first. -/
  | generateAll (target : String)
  /-- Render the makefile fragment of a config for the name that the user asked for. -/
  | makefile (name target : String)
  | setOptions (options : Options)

/-- What a call gives back. -/
inductive Reply where
  | config (resolved : Resolved)
  | report (combined : CombinedReport)
  | fragment (text : String)
  /-- The options were set. -/
  | accepted

namespace Makefile

open Registry

/-- The fragment of a config, when nothing is remembered. -/
def renderAnew (registry : Registry) (name target : String) : Except Error String := do
  let resolved ← registry.resolution name
  let extras ← (extraNames resolved).mapM fun extra => do
    return (extra, ← registry.resolution extra)
  return text registry resolved extras target

/-- In a coherent registry `render` gives what rendering anew gives. -/
theorem answers_render {registry : Registry} (h : registry.Coherent) (name target : String) :
    registry.Answers (render name target) (renderAnew registry name target) := by
  refine answers_bind (answers_generate h name) fun resolved _ => ?_
  have hextra (extra : String) : registry.Answers (do return (extra, ← generate extra))
      (do return (extra, ← registry.resolution extra)) :=
    answers_bind (answers_generate h extra) fun found _ => answers_pure (extra, found)
  refine answers_bind (answers_mapM hextra (extraNames resolved)) fun extras _ => ?_
  -- the fragment lists names of configs, which the cache does not change
  exact answers_get_bind fun cache => answers_pure _

end Makefile

namespace Call

/-- Does what the call asks for. -/
def perform : Call → Session Reply
  | generate name => do return .config (← Registry.generate name)
  | generateAll target => do return .report (← Registry.generateAll target)
  | makefile name target => do return .fragment (← Makefile.render name target)
  | setOptions options => do
    modify fun registry => registry.setOptions options
    return .accepted

/-- The reply when nothing is remembered. -/
def reply (registry : Registry) : Call → Except Error Reply
  | generate name => do return .config (← registry.resolution name)
  | generateAll target => do return .report (← registry.combined target)
  | makefile name target => do return .fragment (← Makefile.renderAnew registry name target)
  | setOptions _ => .ok .accepted

/-- What the call changes besides the cache. -/
def settle (registry : Registry) : Call → Registry
  | setOptions options => registry.setOptions options
  | _ => registry

end Call

namespace Registry

variable {registry : Registry}

/-- The registry after some calls, whether or not they succeed. -/
def after (registry : Registry) (calls : List Call) : Registry :=
  calls.foldl (fun registry call => (call.perform.run registry).2) registry

/-- A call replies as if nothing were remembered, and leaves a coherent registry that differs
by what the call settles, and by the cache. -/
theorem perform_run (h : registry.Coherent) (call : Call) :
    ∃ cache, call.perform.run registry =
        (call.reply registry, (call.settle registry).withCache cache) ∧
      ((call.settle registry).withCache cache).Coherent := by
  -- all calls but one pass on the answer of a session
  have hsession {α : Type} {session : Session α} {outcome : Except Error α} (f : α → Reply)
      (hanswers : registry.Answers session outcome) :
      ∃ cache, (do return f (← session) : Session Reply).run registry =
          ((do return f (← outcome) : Except Error Reply), registry.withCache cache) ∧
        (registry.withCache cache).Coherent := by
    obtain ⟨cache, hrun, hsound, -⟩ :=
      answers_bind hanswers (fun a _ => answers_pure (f a)) _ h.sound
    exact ⟨cache, hrun, h.withCache hsound⟩
  cases call with
  | generate name => exact hsession .config (answers_generate h name)
  | generateAll target => exact hsession .report (answers_generateAll h target)
  | makefile name target => exact hsession .fragment (Makefile.answers_render h name target)
  | setOptions options => exact ⟨NameMap.empty, rfl, h.setOptions options⟩

lemma Coherent.after (h : registry.Coherent) (calls : List Call) :
    (registry.after calls).Coherent := by
  induction calls generalizing registry with
  | nil => exact h
  | cons call rest ih =>
    obtain ⟨cache, hrun, hcoherent⟩ := perform_run h call
    have hstep : (call.perform.run registry).2.Coherent := by
      rw [hrun]
      exact hcoherent
    exact ih hstep

/-- The reply of a call depends on the settings only. -/
lemma reply_withCache (registry : Registry) (cache : Cache) (call : Call) :
    call.reply (registry.withCache cache) = call.reply registry := by
  have hresolution := resolution_withCache registry cache
  cases call with
  | generate name =>
    simp only [Call.reply, hresolution]
  | generateAll target =>
    simp only [Call.reply, combined, hresolution]
    rfl
  | makefile name target =>
    simp only [Call.reply, Makefile.renderAnew, hresolution]
    rfl
  | setOptions options => rfl

lemma Coherent.perform_forget (h : registry.Coherent) (call : Call) :
    (call.perform.run registry).1 = (call.perform.run registry.forget).1 := by
  obtain ⟨_, hrun, -⟩ := perform_run h call
  obtain ⟨_, hforget, -⟩ := perform_run h.forget call
  rw [hrun, hforget]
  exact (reply_withCache registry _ call).symm

/-- Calls change the options and the cache, and nothing else. -/
lemma Coherent.after_forget (h : registry.Coherent) (calls : List Call) :
    (registry.after calls).forget = registry.setOptions (registry.after calls).options := by
  induction calls generalizing registry with
  | nil => rfl
  | cons call rest ih =>
    obtain ⟨cache, hrun, hcoherent⟩ := perform_run h call
    have hstep : registry.after (call :: rest) =
        ((call.settle registry).withCache cache).after rest := by
      rw [Registry.after, List.foldl_cons, hrun]
      rfl
    rw [hstep, ih hcoherent]
    cases call <;> rfl

/-- What is remembered is what resolving without memory gives, by every name of the config. -/
lemma generate_of_get? {name : String} {config : ReleaseConfig}
    {resolved : Resolved} (hname : registry.configStrict name = .ok config)
    (hget : registry.resolved.get? config.name = some resolved) :
    (generate name).run registry = (.ok resolved, registry) := by
  have hrun : (registry.resolveIn config).run registry.resolved =
      (.ok resolved, registry.resolved) := by
    rw [resolveIn, resolve_run, hget]
  rw [generate_run, hname]
  simp only [outcomeOf, hrun]
  rfl

/-- The registry was read by a scan that succeeded, got its settings, and was then used through
any calls. -/
def Reached (registry : Registry) : Prop :=
  ∃ (source : Source) (directories : List String) (scanned : Registry) (allowMissing : Bool)
    (options : Options) (calls : List Call), source.scan directories = .ok scanned ∧
      registry = ({ scanned with allowMissing }.setOptions options).after calls

lemma Reached.coherent (h : registry.Reached) : registry.Coherent := by
  obtain ⟨source, directories, scanned, allowMissing, options, calls, hscan, rfl⟩ := h
  exact (((scanned_of_scan hscan).coherent allowMissing).setOptions options).after calls

/-- Calls leave the declared flags and the configs as the scan found them. -/
lemma Reached.exists_scanned (h : registry.Reached) :
    ∃ scanned : Registry, scanned.Scanned ∧ registry.flags = scanned.flags ∧
      registry.configs = scanned.configs := by
  obtain ⟨source, directories, scanned, allowMissing, options, calls, hscan, rfl⟩ := h
  have hscanned := scanned_of_scan hscan
  have hforget := ((hscanned.coherent allowMissing).setOptions options).after_forget calls
  have hflags := congrArg Registry.flags hforget
  have hconfigs := congrArg Registry.configs hforget
  exact ⟨scanned, hscanned, hflags, hconfigs⟩

lemma Reached.flags_named (h : registry.Reached) {name : String} {flag : FlagState}
    (hget : registry.flags.get? name = some flag) : flag.name = name := by
  obtain ⟨scanned, hscanned, hflags, -⟩ := h.exists_scanned
  exact hscanned.flags_named name flag (hflags ▸ hget)

lemma Reached.flags_declared (h : registry.Reached) {name : String} {flag : FlagState}
    (hget : registry.flags.get? name = some flag) : flag.Declared := by
  obtain ⟨scanned, hscanned, hflags, -⟩ := h.exists_scanned
  exact hscanned.flags_declared name flag (hflags ▸ hget)

lemma Reached.value_sets (h : registry.Reached) :
    registry.flags.get? KnownFlag.aconfigValueSets = some valueSetsFlag := by
  obtain ⟨scanned, hscanned, hflags, -⟩ := h.exists_scanned
  rw [hflags, hscanned.value_sets]

lemma Reached.assembled (h : registry.Reached) {config : ReleaseConfig}
    (hc : registry.Has config) : config.Assembled := by
  obtain ⟨scanned, hscanned, -, hconfigs⟩ := h.exists_scanned
  exact hscanned.configs_assembled config.name config (hconfigs ▸ hc)

/-! ### A sample -/

end Registry

/-- A config directory with a flag, and a config that redacts it. -/
def FileTree.sample : FileTree where
  nodes := ⟨[
    ("/d", .directory),
    ("/d/flag_declarations", .directory),
    ("/d/flag_declarations/F.toml", .file (some "name='F'\nnamespace=''\nworkflow='MANUAL'")),
    ("/d/flag_values", .directory),
    ("/d/flag_values/a", .directory),
    ("/d/flag_values/a/F.toml", .file (some "name='F'\nredacted=true")),
    ("/d/release_config_map.toml", .file (some "")),
    ("/d/release_configs", .directory),
    ("/d/release_configs/a.toml", .file (some "name='a'"))], by
      unfold Increasing
      decide +kernel⟩
  workingDirectory := ""

def Source.sample : Source := ⟨FileTree.sample, ⟨""⟩⟩

namespace Registry

/-- The sample, as a scan reads it. -/
def sample : Registry := (Source.sample.scan ["d"]).toOption.getD empty

/-- The sample, ready to be used. -/
def sampled : Registry := { sample with allowMissing := false }.setOptions .default

/-- In what a scan gives, a config resolves to one that passes the test. -/
def resolvesTo (target : String) (test : Resolved → Bool) (scan : Except Error Registry) : Bool :=
  match scan with
  | .error _ => false
  | .ok scanned =>
    match ((generate target).run
      ({ scanned with allowMissing := false }.setOptions .default)).1 with
    | .error _ => false
    | .ok resolved => test resolved

lemma exists_of_resolvesTo {target : String} {test : Resolved → Bool}
    {scan : Except Error Registry} (h : resolvesTo target test scan = true) :
    ∃ scanned resolved, scan = .ok scanned ∧
      ((generate target).run ({ scanned with allowMissing := false }.setOptions .default)).1 =
        .ok resolved ∧ test resolved = true := by
  unfold resolvesTo at h
  split at h
  · cases h
  · next scanned =>
    split at h
    · cases h
    · next resolved hresolved => exact ⟨scanned, resolved, rfl, hresolved, h⟩

/-- In what a scan gives, a config resolves to one where a flag passes the test. -/
def finds (target name : String) (test : FlagState → Bool) (scan : Except Error Registry) :
    Bool :=
  resolvesTo target (fun resolved => ((resolved.flags.get? name).map test).getD false) scan

lemma exists_of_finds {target name : String} {test : FlagState → Bool}
    {scan : Except Error Registry} (h : finds target name test scan = true) :
    ∃ scanned resolved flag, scan = .ok scanned ∧
      ((generate target).run ({ scanned with allowMissing := false }.setOptions .default)).1 =
        .ok resolved ∧
      resolved.flags.get? name = some flag ∧ test flag = true := by
  obtain ⟨scanned, resolved, hscan, hresolved, htest⟩ := exists_of_resolvesTo h
  cases hget : resolved.flags.get? name with
  | none =>
    rw [hget] at htest
    cases htest
  | some flag =>
    rw [hget] at htest
    exact ⟨scanned, resolved, flag, hscan, hresolved, hget, htest⟩

/-- Resolving the config of a name fails with the error. -/
def failsWith (target : String) (e : Error) (registry : Registry) : Bool :=
  match ((generate target).run registry).1 with
  | .error found => found = e
  | .ok _ => false

lemma eq_of_failsWith {target : String} {e : Error} {registry : Registry}
    (h : failsWith target e registry = true) :
    ((generate target).run registry).1 = .error e := by
  unfold failsWith at h
  split at h
  · next found hfound => rw [hfound, of_decide_eq_true h]
  · cases h

/-- The sample can be scanned, and its config hides the flag. -/
lemma sample_hides : Source.sample.scan ["d"] = .ok sample ∧
    ∃ resolved flag, ((generate "a").run sampled).1 = .ok resolved ∧
      resolved.flags.get? "F" = some flag ∧ flag.redacted = true := by
  have hfinds : finds "a" "F" FlagState.redacted (Source.sample.scan ["d"]) = true := by
    decide +kernel
  obtain ⟨scanned, resolved, flag, hscan, hrun, hflag⟩ := exists_of_finds hfinds
  have hsample : sample = scanned := by
    rw [sample, hscan]
    rfl
  refine ⟨hsample ▸ hscan, resolved, flag, ?_, hflag⟩
  rw [sampled, hsample, hrun]

lemma scan_sample : Source.sample.scan ["d"] = .ok sample := sample_hides.1

lemma sampled_reached : sampled.Reached :=
  ⟨Source.sample, ["d"], sample, false, .default, [], scan_sample, rfl⟩

variable {registry : Registry}

/-! ### Memory -/

/-- What is remembered is never seen.  However a registry from a scan was used, every call
replies as in the registry from the scan with the options that are set now, and an empty cache;
each cached entry is what resolving its config without a cache gives; and every name or alias of
a cached config gives its entry. -/
theorem memory_invisible {source : Source} {directories : List String} {scanned : Registry}
    (hscan : source.scan directories = .ok scanned) (allowMissing : Bool) (options : Options)
    (calls : List Call) :
    let reached := ({ scanned with allowMissing }.setOptions options).after calls
    reached.forget = { scanned with allowMissing }.setOptions reached.options ∧
      (∀ call : Call, (call.perform.run reached).1 = (call.perform.run reached.forget).1) ∧
      (∀ name resolved, reached.resolved.get? name = some resolved →
        ((generate name).run reached.forget).1 = .ok resolved) ∧
      ∀ name config resolved, reached.configStrict name = .ok config →
        reached.resolved.get? config.name = some resolved →
          (generate name).run reached = (.ok resolved, reached) := by
  intro reached
  have hstart := ((scanned_of_scan hscan).coherent allowMissing).setOptions options
  have h : reached.Coherent := hstart.after calls
  refine ⟨hstart.after_forget calls, h.perform_forget, ?_, fun _ _ _ => generate_of_get?⟩
  intro name resolved hget
  obtain ⟨config, hc, rfl, -⟩ := h.sound name resolved hget
  have hrun := generate_of_get? (h.configStrict_self hc) hget
  rw [h.forget.generate_eq, forget, resolution_withCache, ← h.generate_eq, hrun]

theorem memory_invisible_sample :
    Source.sample.scan ["d"] = .ok sample ∧
      let reached := ({ sample with allowMissing := true }.setOptions .default).after
        [.generate "b", .generateAll "a"]
      ((Call.makefile "a" "b").perform.run reached).1 =
        ((Call.makefile "a" "b").perform.run reached.forget).1 :=
  ⟨scan_sample, (memory_invisible scan_sample true .default
    [.generate "b", .generateAll "a"]).2.1 (.makefile "a" "b")⟩

end Registry

end ReleaseFlags
