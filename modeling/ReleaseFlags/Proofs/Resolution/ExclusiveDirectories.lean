import ReleaseFlags.Proofs.Resolution.Directories

/-!
# Exclusive directories

Contributing directories are checked one after the other against the entries of a list, and only the
last one that lay under some entry is kept.  If no entry of the list is below another one, this is
enough: every directory that was passed agrees with the one that is kept, in that all entries above
the former are above the latter (`Agrees`).  So the check refuses a config exactly if two of its
directories lie under different entries, and the order of the directories and of the entries has no
part in it (`checksExactly_freeze`).
-/

namespace ReleaseFlags

/-- Entries are the same one, slashes at the end aside, or none of them is below the other. -/
def Separate (entries : List String) : Prop :=
  ∀ entry ∈ entries, ∀ other ∈ entries, trimmed entry = trimmed other ∨
    ¬ Path.components (trimmed entry) <+: Path.components (trimmed other)

instance (entries : List String) : Decidable (Separate entries) :=
  inferInstanceAs (Decidable (∀ entry ∈ entries, ∀ other ∈ entries, _ ∨ ¬ _))

/-- The directories lie under different entries. -/
def Excludes (entries : List String) (first second : String) : Prop :=
  ∃ entry ∈ entries, ∃ other ∈ entries, LiesUnder first entry ∧ LiesUnder second other ∧
    trimmed entry ≠ trimmed other

variable {entries entries' done directories : List String} {name directory entry other : String}
  {first first' : Option String}

/-! ### Entries -/

lemma Separate.trimmed_eq (h : Separate entries) (hentry : entry ∈ entries)
    (hother : other ∈ entries) (hunder : LiesUnder directory entry)
    (hunder' : LiesUnder directory other) : trimmed entry = trimmed other := by
  rcases List.prefix_or_prefix_of_prefix hunder hunder' with hbelow | hbelow
  · exact (h entry hentry other hother).resolve_right fun hnot => hnot hbelow
  · exact ((h other hother entry hentry).resolve_right fun hnot => hnot hbelow).symm

/-- If some directory lies under two entries, every directory under one lies under the other. -/
lemma Separate.liesUnder (h : Separate entries) (hentry : entry ∈ entries)
    (hother : other ∈ entries) (hunder : LiesUnder directory entry)
    (hunder' : LiesUnder directory other) {last : String} (hlast : LiesUnder last entry) :
    LiesUnder last other :=
  (liesUnder_congr (h.trimmed_eq hentry hother hunder hunder')).mp hlast

/-- The entries of the first list are in the second one, slashes at the end aside. -/
def Among (entries entries' : List String) : Prop :=
  ∀ entry ∈ entries, ∃ other ∈ entries', trimmed entry = trimmed other

lemma Separate.of_among (h : Separate entries) (hamong : Among entries' entries) :
    Separate entries' := by
  intro entry hentry other hother
  obtain ⟨entry₀, hentry₀, heq⟩ := hamong entry hentry
  obtain ⟨other₀, hother₀, heq'⟩ := hamong other hother
  rw [heq, heq']
  exact h entry₀ hentry₀ other₀ hother₀

lemma Excludes.of_among {one two : String} (h : Excludes entries one two)
    (hamong : Among entries entries') : Excludes entries' one two := by
  obtain ⟨entry, hentry, other, hother, hone, htwo, hne⟩ := h
  obtain ⟨entry', hentry', heq⟩ := hamong entry hentry
  obtain ⟨other', hother', heq'⟩ := hamong other hother
  exact ⟨entry', hentry', other', hother', (liesUnder_congr heq).mp hone,
    (liesUnder_congr heq').mp htwo, heq ▸ heq' ▸ hne⟩

/-! ### The check -/

/-- What checking a directory against all entries does to the one that was kept before.  A directory
that lies under an entry is kept; and then it shares an entry with the one before. -/
lemma kept_of_checkPrefixes (h : entries.foldlM (checkPrefix name directory) first = .ok first') :
    (∀ entry ∈ entries, LiesUnder directory entry → first' = some directory) ∧
      (first' = first ∨ first' = some directory ∧ ∀ last, first = some last →
        ∃ entry ∈ entries, LiesUnder last entry ∧ LiesUnder directory entry) := by
  refine foldlM_induction (P := fun seen kept =>
    (∀ entry ∈ seen, LiesUnder directory entry → kept = some directory) ∧
      (kept = first ∨ kept = some directory ∧ ∀ last, first = some last →
        ∃ entry ∈ entries, LiesUnder last entry ∧ LiesUnder directory entry))
    (fun seen entry kept kept' hentry hok hkept => ?_) h ⟨nofun, .inl rfl⟩
  obtain ⟨hseen, hbefore⟩ := hkept
  rcases Registry.checkPrefix_eq_ok.mp hok with ⟨hnot, rfl⟩ | ⟨hunder, hagrees, rfl⟩
  · refine ⟨fun other hother hother' => ?_, hbefore⟩
    rcases List.mem_append.mp hother with hother | hlast
    · exact hseen other hother hother'
    · exact absurd (List.mem_singleton.mp hlast ▸ hother') hnot
  · refine ⟨fun _ _ _ => rfl, .inr ⟨rfl, ?_⟩⟩
    rcases hbefore with rfl | ⟨-, hshares⟩
    · exact fun last hlast => ⟨entry, hentry, hagrees last hlast, hunder⟩
    · exact hshares

/-- Every entry that is above a directory of the list is above the one that is kept. -/
def Agrees (entries done : List String) (first : Option String) : Prop :=
  ∀ directory ∈ done, ∀ entry ∈ entries, LiesUnder directory entry →
    ∃ last, first = some last ∧ LiesUnder last entry

lemma Agrees.step (h : Agrees entries done first) (hseparate : Separate entries)
    (hok : entries.foldlM (checkPrefix name directory) first = .ok first') :
    Agrees entries (done ++ [directory]) first' := by
  obtain ⟨hkept, hbefore⟩ := kept_of_checkPrefixes hok
  intro one hone entry hentry hunder
  rcases List.mem_append.mp hone with hdone | hlast
  · obtain ⟨last, rfl, hlast⟩ := h one hdone entry hentry hunder
    rcases hbefore with rfl | ⟨rfl, hshares⟩
    · exact ⟨last, rfl, hlast⟩
    · -- the directory shares an entry with the one before, so it lies under the same ones
      obtain ⟨other, hother, hlast', hdirectory⟩ := hshares last rfl
      exact ⟨directory, rfl, hseparate.liesUnder hother hentry hlast' hlast hdirectory⟩
  · obtain rfl := List.mem_singleton.mp hlast
    exact ⟨one, hkept entry hentry hunder, hunder⟩

/-- Where the check succeeds, no directory excludes another one. -/
lemma not_excludes_of_checkExclusive (hseparate : Separate entries)
    (h : checkExclusive name entries directories = .ok ()) {one two : String}
    (hone : one ∈ directories) (htwo : two ∈ directories) : ¬ Excludes entries one two := by
  obtain ⟨first, hok, -⟩ := bind_eq_ok.mp h
  have hagrees : Agrees entries directories first := foldlM_induction (P := Agrees entries)
    (fun _ _ _ _ _ hok hdone => hdone.step hseparate hok) hok nofun
  rintro ⟨entry, hentry, other, hother, hunder, hunder', hne⟩
  obtain ⟨last, rfl, hlast⟩ := hagrees one hone entry hentry hunder
  obtain ⟨_, ⟨⟩, hlast'⟩ := hagrees two htwo other hother hunder'
  exact hne (hseparate.trimmed_eq hentry hother hlast hlast')

/-- The directories that an error names exclude each other. -/
lemma excludes_of_checkExclusive {e : Error}
    (h : checkExclusive name entries directories = .error e) :
    ∃ one ∈ directories, ∃ two ∈ directories, e = .exclusiveDirectories name one two ∧
      Excludes entries one two := by
  obtain ⟨one, hone, two, htwo, rfl, entry, hentry, hunder, other, hother, hunder', hnot⟩ :=
    Registry.checkExclusive_eq_error h
  refine ⟨one, hone, two, htwo, rfl, entry, hentry, other, hother, hunder, hunder', fun heq => ?_⟩
  exact hnot ((liesUnder_congr heq).mp hunder)

namespace Registry

variable {registry registry' : Registry} {config config' : ReleaseConfig}

/-- Two directories that contribute to the config exclude each other. -/
def Conflicts (registry : Registry) (config : ReleaseConfig) : Prop :=
  ∃ one two, registry.Contributes config one ∧ registry.Contributes config two ∧
    Excludes registry.options.exclusivePrefixes one two

/-- The config is refused because of its directories. -/
def Refuses (config : ReleaseConfig) (outcome : Except Error Resolved) : Prop :=
  ∃ one two, outcome = .error (.exclusiveDirectories config.name one two)

/-- The outcome is decided by the directories of the config. -/
structure ChecksExactly (registry : Registry) (config : ReleaseConfig)
    (outcome : Except Error Resolved) : Prop where
  refuses_iff : Refuses config outcome ↔ registry.Conflicts config
  accepts_iff : (∃ resolved, outcome = .ok resolved) ↔ ¬ registry.Conflicts config

/-- Both registries have the same entries, slashes at the end aside, and the directories below them
that contribute to the configs are the same ones.  Nothing is said about orders, repetitions or
other directories. -/
structure SameChecked (registry : Registry) (config : ReleaseConfig) (registry' : Registry)
    (config' : ReleaseConfig) : Prop where
  among : Among registry.options.exclusivePrefixes registry'.options.exclusivePrefixes
  among' : Among registry'.options.exclusivePrefixes registry.options.exclusivePrefixes
  contributes_iff : ∀ entry ∈ registry.options.exclusivePrefixes, ∀ directory,
    LiesUnder directory entry →
      (registry.Contributes config directory ↔ registry'.Contributes config' directory)

/-- The last step of resolving a config fails only if its directories are refused. -/
lemma checksExactly (h : Separate registry.options.exclusivePrefixes) (config : ReleaseConfig)
    (working : Working) (inherits : List String) :
    registry.ChecksExactly config (working.freeze registry config inherits) := by
  cases hcheck : checkExclusive config.name registry.options.exclusivePrefixes
      (registry.directoriesAt config.valueIndices) with
  | ok _ =>
    have hnone : ¬ registry.Conflicts config := by
      rintro ⟨one, two, hone, htwo, hexcludes⟩
      exact not_excludes_of_checkExclusive h hcheck (mem_valueDirectories.mpr hone)
        (mem_valueDirectories.mpr htwo) hexcludes
    rw [Working.freeze, hcheck]
    exact ⟨iff_of_false nofun hnone, iff_of_true ⟨_, rfl⟩ hnone⟩
  | error e =>
    obtain ⟨one, hone, two, htwo, rfl, hexcludes⟩ := excludes_of_checkExclusive hcheck
    have hconflicts : registry.Conflicts config :=
      ⟨one, two, mem_valueDirectories.mp hone, mem_valueDirectories.mp htwo, hexcludes⟩
    rw [Working.freeze, hcheck]
    exact ⟨iff_of_true ⟨one, two, rfl⟩ hconflicts, iff_of_false nofun fun hnot => hnot hconflicts⟩

lemma SameChecked.symm (h : registry.SameChecked config registry' config') :
    registry'.SameChecked config' registry config where
  among := h.among'
  among' := h.among
  contributes_iff := by
    intro entry hentry directory hunder
    obtain ⟨other, hother, heq⟩ := h.among' entry hentry
    exact (h.contributes_iff other hother directory ((liesUnder_congr heq).mp hunder)).symm

lemma SameChecked.conflicts (h : registry.SameChecked config registry' config')
    (hconflicts : registry.Conflicts config) : registry'.Conflicts config' := by
  obtain ⟨one, two, hone, htwo, hexcludes⟩ := hconflicts
  have hexcludes' := hexcludes.of_among h.among
  obtain ⟨entry, hentry, other, hother, hunder, hunder', -⟩ := hexcludes
  exact ⟨one, two, (h.contributes_iff entry hentry one hunder).mp hone,
    (h.contributes_iff other hother two hunder').mp htwo, hexcludes'⟩

/-- **Exclusive directories.**  If no entry is below another one, a config is refused exactly if two
of its directories lie under different entries; and whether it is refused depends on nothing but the
set of the entries and the set of the directories below them. -/
theorem checksExactly_freeze (registry : Registry) (config : ReleaseConfig)
    (h : Separate registry.options.exclusivePrefixes) (working : Working)
    (inherits : List String) :
    registry.ChecksExactly config (working.freeze registry config inherits) ∧
      ∀ registry' config', registry.SameChecked config registry' config' →
        ∀ working' inherits',
          Refuses config' (Working.freeze working' registry' config' inherits') ↔
            Refuses config (working.freeze registry config inherits) := by
  have hchecks := checksExactly h config working inherits
  refine ⟨hchecks, fun registry' config' hsame working' inherits' => ?_⟩
  have hchecks' := checksExactly (h.of_among hsame.among') config' working' inherits'
  rw [hchecks'.refuses_iff, hchecks.refuses_iff]
  exact ⟨hsame.symm.conflicts, hsame.conflicts⟩

/-! ### A sample -/

/-- A registry with these directories and entries. -/
def placed (directories entries : List String) : Registry :=
  { empty with directories, options := { Options.default with exclusivePrefixes := entries } }

/-- A config with contributions in the directories at the indices. -/
def contributor (indices : List Nat) : ReleaseConfig :=
  { ReleaseConfig.new "a" 0 .release with
    contributions := indices.map fun index => ⟨"", index, default, []⟩ }

/-- Two directories exclude each other, with another one between them or not, in either order, and
also if the entries come in another order and repeated. -/
theorem checksExactly_freeze_placed :
    let entries := ["build/release", "vendor/google_shared/build/release"]
    let registry := placed ["build/release", "d", "vendor/google_shared/build/release/d"] entries
    let registry' := placed ["vendor/google_shared/build/release/d", "build/release"]
      ["vendor/google_shared/build/release/", "build/release", "build/release/"]
    Separate entries ∧ registry.SameChecked (contributor [0, 1, 2]) registry' (contributor [0, 1]) ∧
      ∀ working inherits,
        Refuses (contributor [0, 1, 2]) (Working.freeze working registry (contributor [0, 1, 2])
          inherits) ∧
        Refuses (contributor [0, 1]) (Working.freeze working registry' (contributor [0, 1])
          inherits) := by
  intro entries registry registry'
  have hseparate : Separate entries := by decide +kernel
  have hlist : registry.directoriesAt (contributor [0, 1, 2]).valueIndices =
      ["build/release", "d", "vendor/google_shared/build/release/d"] := by decide +kernel
  have hlist' : registry'.directoriesAt (contributor [0, 1]).valueIndices =
      ["vendor/google_shared/build/release/d", "build/release"] := by decide +kernel
  have houtside : ∀ entry ∈ entries, ¬ LiesUnder "d" entry := by decide +kernel
  have hsame : registry.SameChecked (contributor [0, 1, 2]) registry' (contributor [0, 1]) := by
    refine ⟨by unfold Among; decide +kernel, by unfold Among; decide +kernel, ?_⟩
    intro entry hentry directory hunder
    have hne : directory ≠ "d" := fun heq => houtside entry hentry (heq ▸ hunder)
    rw [← mem_valueDirectories, ← mem_valueDirectories, hlist, hlist']
    simp [hne, or_comm]
  have hconflicts : registry.Conflicts (contributor [0, 1, 2]) := by
    refine ⟨"build/release", "vendor/google_shared/build/release/d", ?_, ?_, ?_⟩
    · exact mem_valueDirectories.mp (hlist ▸ by simp)
    · exact mem_valueDirectories.mp (hlist ▸ by simp)
    · unfold Excludes
      decide +kernel
  refine ⟨hseparate, hsame, fun working inherits => ?_⟩
  obtain ⟨hchecks, hagree⟩ :=
    checksExactly_freeze registry (contributor [0, 1, 2]) hseparate working inherits
  have hrefuses := hchecks.refuses_iff.mpr hconflicts
  exact ⟨hrefuses, (hagree registry' _ hsame working inherits).mpr hrefuses⟩

end Registry

end ReleaseFlags
