import Mathlib.Data.List.Induction
import Mathlib.Data.List.ProdSigma
import ReleaseFlags.Proofs.Lines
import ReleaseFlags.Proofs.Path
import ReleaseFlags.Proofs.Resolution.Shape
import ReleaseFlags.Report.Makefile

/-!
# The variables of a fragment

A fragment has variables for the flags of a config and for those that its extra configs export under
keys of their own (`get?_exportedFlags`).  Whatever the extra configs are called, a key is one word
that starts with a capital letter (`Reached.wellSpelled`).

What is told about a flag besides its value is in variables that are made of its key and a suffix.
Since no suffix holds a dot, key and suffix are read back from the variable
(`described?_variableOf`), so no two of these variables have the same name and none is lost
(`get?_metadataVariables`).
-/

namespace ReleaseFlags

namespace Makefile

variable {resolved : Resolved} {extra : String × Resolved} {extras : List (String × Resolved)}
  {flags : Flags} {flag : FlagState} {key name suffix value : String}

/-! ### The flags behind the variables -/

/-- The flag that an extra config exports under the key. -/
def exported? (key : String) (extra : String × Resolved) : Option FlagState :=
  if key = KnownFlag.aconfigValueSets ++ "_" ++ extra.1 then
    extra.2.flags.get? KnownFlag.aconfigValueSets
  else if key = KnownFlag.flagDefaultPermission ++ "_" ++ extra.1 then
    extra.2.flags.get? KnownFlag.flagDefaultPermission
  else none

/-- The flag behind the key: that of the last extra config that exports one, or else that of the
config itself. -/
def flagOf (resolved : Resolved) (extras : List (String × Resolved)) (key : String) :
    Option FlagState :=
  (extras.reverse.findSome? (exported? key)).or (resolved.flags.get? key)

lemma get?_exportFlag (extra : String) (resolved : Resolved) (exported : Flags)
    (name key : String) : (exportFlag extra resolved exported name).get? key =
      (if key = name ++ "_" ++ extra then resolved.flags.get? name else none).or
        (exported.get? key) := by
  unfold exportFlag
  cases hget : resolved.flags.get? name with
  | none => simp
  | some flag =>
    rw [NameMap.get?_insert]
    split <;> rfl

/-- The keys of the two exported flags differ, whatever the extra configs are called. -/
lemma permissionKey_ne (extra other : String) : KnownFlag.flagDefaultPermission ++ "_" ++ extra ≠
    KnownFlag.aconfigValueSets ++ "_" ++ other := by
  rw [ne_eq, ← String.toList_inj]
  simp [KnownFlag.flagDefaultPermission, KnownFlag.aconfigValueSets]

lemma exported?_or (key : String) (extra : String × Resolved) (own : Option FlagState) :
    (if key = KnownFlag.flagDefaultPermission ++ "_" ++ extra.1 then
      extra.2.flags.get? KnownFlag.flagDefaultPermission else none).or
        ((if key = KnownFlag.aconfigValueSets ++ "_" ++ extra.1 then
          extra.2.flags.get? KnownFlag.aconfigValueSets else none).or own) =
      (exported? key extra).or own := by
  unfold exported?
  by_cases hkey : key = KnownFlag.flagDefaultPermission ++ "_" ++ extra.1
  · subst hkey
    have hne := permissionKey_ne extra.1 extra.1
    rw [if_pos rfl, if_neg hne, if_neg hne, Option.none_or]
  · simp [hkey]

/-- What is behind each key. -/
lemma get?_exportedFlags :
    (exportedFlags resolved extras).get? key = flagOf resolved extras key := by
  unfold flagOf
  induction extras using List.reverseRecOn with
  | nil => rfl
  | append_singleton extras extra ih =>
    have hstep : exportedFlags resolved (extras ++ [extra]) = exportFlag extra.1 extra.2
        (exportFlag extra.1 extra.2 (exportedFlags resolved extras) KnownFlag.aconfigValueSets)
        KnownFlag.flagDefaultPermission := by
      rw [exportedFlags, List.foldl_append]
      rfl
    rw [hstep, get?_exportFlag, get?_exportFlag, ih, exported?_or, List.reverse_append,
      List.reverse_singleton, List.singleton_append, List.findSome?_cons]
    cases exported? key extra <;> rfl

/-- A flag is behind its own name, or is exported by an extra config. -/
lemma flagOf_eq_some (h : flagOf resolved extras key = some flag) :
    resolved.flags.get? key = some flag ∨ ∃ extra ∈ extras,
      ∃ name ∈ [KnownFlag.aconfigValueSets, KnownFlag.flagDefaultPermission],
        key = name ++ "_" ++ extra.1 ∧ extra.2.flags.get? name = some flag := by
  rcases Option.or_eq_some_iff.mp h with h | ⟨-, h⟩
  · obtain ⟨extra, hmem, hexported⟩ := List.exists_of_findSome?_eq_some h
    refine .inr ⟨extra, List.mem_reverse.mp hmem, ?_⟩
    unfold exported? at hexported
    split at hexported
    · next hkey => exact ⟨_, List.mem_cons_self, hkey, hexported⟩
    · split at hexported
      · next hkey => exact ⟨_, by simp, hkey, hexported⟩
      · cases hexported
  · exact .inl h

/-! ### Their spelling -/

/-- Every key is a word that starts with a capital letter, and the containers are lower-case
identifiers. -/
structure WellSpelled (flags : Flags) : Prop where
  key_starts : ∀ key ∈ flags.names, ∃ first rest, key.toList = first :: rest ∧ first.isUpper
  key_word : ∀ key ∈ flags.names, ' ' ∉ key.toList
  containers : ∀ key flag, flags.get? key = some flag →
    ∀ container ∈ flag.declaration.containers, Spelled 'a' 'z' container

end Makefile

/-- Other characters do not occur in an identifier. -/
lemma Spelled.notMem {low high c : Char} {text : String} (h : Spelled low high text)
    (hc : ¬ ((low ≤ c ∧ c ≤ high) ∨ ('0' ≤ c ∧ c ≤ '9') ∨ c = '_')) : c ∉ text.toList := by
  obtain ⟨letter, rest, heq, hletter, hrest⟩ := h
  rw [heq]
  intro hmem
  rcases List.mem_cons.mp hmem with rfl | hmem
  · exact hc (.inl hletter)
  · exact hc (hrest c hmem)

lemma Spelled.exists_upper {text : String} (h : Spelled 'A' 'Z' text) :
    ∃ first rest, text.toList = first :: rest ∧ first.isUpper := by
  obtain ⟨letter, rest, heq, hletter, -⟩ := h
  exact ⟨letter, rest, heq, decide_eq_true hletter⟩

namespace Registry

variable {registry : Registry} {name key : String} {resolved : Resolved} {flag : FlagState}

/-- A flag of a resolved config is declared with valid names. -/
lemma Reached.spelled (h : registry.Reached) (hr : registry.resolution name = .ok resolved)
    (hflag : resolved.flags.get? key = some flag) : Spelled 'A' 'Z' key ∧
      ∀ container ∈ flag.declaration.containers, Spelled 'a' 'z' container := by
  obtain ⟨config, -, hr⟩ := bind_eq_ok.mp hr
  obtain ⟨declared, hdeclared, heq, -⟩ := (h.keepsShape (.of_ok hr)).flag key flag hflag
  rw [heq]
  by_cases hkey : key = KnownFlag.aconfigValueSets
  · -- the flag of the engine
    rw [hkey, h.value_sets] at hdeclared
    obtain rfl := Option.some.inj hdeclared
    refine ⟨?_, fun container hmem => ?_⟩
    · rw [hkey, ← isFlagName_iff]
      decide
    · rw [← isContainerName_iff]
      revert container
      decide
  · have hvalid := (h.indexed.flags_below key declared hdeclared hkey).valid
    have hname : declared.declaration.name = key := h.flags_named hdeclared
    exact ⟨hname ▸ hvalid.name_spelled, hvalid.containers_spelled⟩

open Makefile in
/-- The names of extra configs are words, so the keys are words too. -/
lemma Reached.wellSpelled (h : registry.Reached) {extras : List (String × Resolved)}
    (hr : registry.resolution name = .ok resolved)
    (hnames : extras.map Prod.fst = extraNames resolved)
    (hextras : ∀ extra ∈ extras, registry.resolution extra.1 = .ok extra.2) :
    WellSpelled (exportedFlags resolved extras) := by
  have hkeys : ∀ key ∈ (exportedFlags resolved extras).names,
      (∃ first rest, key.toList = first :: rest ∧ first.isUpper) ∧ ' ' ∉ key.toList := by
    intro key hkey
    obtain ⟨flag, hbehind⟩ := NameMap.mem_names.mp hkey
    rw [get?_exportedFlags] at hbehind
    rcases flagOf_eq_some hbehind with hflag | ⟨extra, hextra, known, -, rfl, hflag⟩
    · obtain ⟨hspelled, -⟩ := h.spelled hr hflag
      exact ⟨hspelled.exists_upper, hspelled.notMem (by decide)⟩
    · obtain ⟨hspelled, -⟩ := h.spelled (hextras extra hextra) hflag
      obtain ⟨first, rest, heq, hupper⟩ := hspelled.exists_upper
      have hword : ' ' ∉ extra.1.toList := by
        have hmem : extra.1 ∈ extraNames resolved := hnames ▸ List.mem_map_of_mem hextra
        unfold extraNames at hmem
        split at hmem
        · exact Words.notMem_of_mem_ofLine hmem
        · cases hmem
      have hspace : ' ' ∉ known.toList := hspelled.notMem (by decide)
      refine ⟨⟨first, _, by rw [String.toList_append, String.toList_append, heq]; rfl, hupper⟩, ?_⟩
      simp [hspace, hword]
  refine ⟨fun key hkey => (hkeys key hkey).1, fun key hkey => (hkeys key hkey).2, ?_⟩
  intro key flag hbehind
  rw [get?_exportedFlags] at hbehind
  rcases flagOf_eq_some hbehind with hflag | ⟨extra, hextra, known, -, -, hflag⟩
  · exact (h.spelled hr hflag).2
  · exact (h.spelled (hextras extra hextra) hflag).2

end Registry

namespace Makefile

variable {flags : Flags} {flag : FlagState} {key suffix value : String}

/-! ### Partitions -/

/-- The members of a partition: every key, once for each time that its flag lists it. -/
def membersOf (flags : Flags) (partition : String) : List String :=
  flags.entries.flatMap fun entry =>
    List.replicate (entry.2.declaration.containers.count partition) entry.1

/-- Each partition has its members. -/
lemma indexes_partitions (flags : Flags) :
    NameMap.Indexes id (partitions flags) (membersOf flags) := by
  refine NameMap.Indexes.foldl (fun {found members} hfound entry => ?_)
    (NameMap.indexes_empty id) flags.entries
  refine NameMap.Indexes.foldl_keys (fun {found members} hfound container => ?_) hfound
    entry.2.declaration.containers
  have hmembers : (found.get? container).getD [] = members container := by
    rw [hfound]
    split <;> simp [*]
  rw [hmembers]
  exact hfound.insert container entry.1

lemma mem_membersOf {partition member : String} : member ∈ membersOf flags partition ↔
    ∃ flag, flags.get? member = some flag ∧ partition ∈ flag.declaration.containers := by
  simp only [membersOf, List.mem_flatMap, List.mem_replicate, Nat.ne_zero_iff_zero_lt,
    List.count_pos_iff, Prod.exists, NameMap.mem_entries]
  constructor
  · rintro ⟨key, flag, hflag, hmem, rfl⟩
    exact ⟨flag, hflag, hmem⟩
  · rintro ⟨flag, hflag, hmem⟩
    exact ⟨member, flag, hflag, hmem, rfl⟩

/-- Each partition is a container of some flag, and its members are keys. -/
def Partitioned (flags : Flags) (found : NameMap (List String)) : Prop :=
  ∀ partition members, found.get? partition = some members →
    (∃ key flag, flags.get? key = some flag ∧ partition ∈ flag.declaration.containers) ∧
      ∀ member ∈ members, member ∈ flags.names

lemma partitioned_partitions (flags : Flags) : Partitioned flags (partitions flags) := by
  intro partition members hget
  rw [indexes_partitions] at hget
  split at hget
  · cases hget
  · next hne =>
    obtain rfl := Option.some.inj hget
    obtain ⟨key, hkey⟩ := List.exists_mem_of_ne_nil _ hne
    refine ⟨⟨key, mem_membersOf.mp hkey⟩, fun member hmem => ?_⟩
    obtain ⟨flag, hflag, -⟩ := mem_membersOf.mp hmem
    exact NameMap.mem_names.mpr ⟨flag, hflag⟩

/-! ### What is told about a flag -/

/-- What is told about a flag under each suffix. -/
inductive Tells (flag : FlagState) : (suffix value : String) → Prop
  | type : Tells flag "TYPE" flag.value.typeName
  | partitions : Tells flag "PARTITIONS" (" ".intercalate flag.declaration.containers)
  | default : Tells flag "DEFAULT" flag.declaration.value.marshal
  | value : Tells flag "VALUE" flag.value.marshal
  | declaredIn : Tells flag "DECLARED_IN" flag.declaredIn
  | setIn : Tells flag "SET_IN" flag.setIn
  | namespaceName : Tells flag "NAMESPACE" flag.declaration.namespaceName

/-- The suffixes. -/
def suffixes : List String :=
  ["TYPE", "PARTITIONS", "DEFAULT", "VALUE", "DECLARED_IN", "SET_IN", "NAMESPACE"]

lemma mem_metadata : (suffix, value) ∈ metadata flag ↔ Tells flag suffix value := by
  constructor
  · intro h
    simp only [metadata, List.mem_cons, Prod.mk.injEq, List.not_mem_nil, or_false] at h
    rcases h with ⟨rfl, rfl⟩ | ⟨rfl, rfl⟩ | ⟨rfl, rfl⟩ | ⟨rfl, rfl⟩ | ⟨rfl, rfl⟩ | ⟨rfl, rfl⟩ |
      ⟨rfl, rfl⟩ <;> constructor
  · intro h
    cases h <;> simp [metadata]

lemma Tells.mem_suffixes (h : Tells flag suffix value) : suffix ∈ suffixes := by
  cases h <;> simp [suffixes]

/-- The suffixes are written in capitals and underscores. -/
lemma spelled_of_mem_suffixes (h : suffix ∈ suffixes) : Spelled 'A' 'Z' suffix := by
  have hall : ∀ suffix ∈ suffixes, isFlagName suffix = true := by decide
  exact isFlagName_iff.mp (hall suffix h)

/-- The variable that tells about the flag of a key under a suffix. -/
def variableOf (key suffix : String) : String := "_ALL_RELEASE_FLAGS." ++ key ++ "." ++ suffix

lemma toList_variableOf (key suffix : String) : (variableOf key suffix).toList =
    "_ALL_RELEASE_FLAGS.".toList ++ key.toList ++ '.' :: suffix.toList := by
  have hdot : ".".toList = ['.'] := rfl
  change ("_ALL_RELEASE_FLAGS." ++ key ++ "." ++ suffix).toList = _
  rw [String.toList_append, String.toList_append, String.toList_append, hdot, List.append_assoc,
    List.singleton_append]

/-- The key and the suffix of a variable: what is before and after its last dot. -/
def described? (var : String) : Option (String × String) :=
  (Path.stripFront "_ALL_RELEASE_FLAGS.".toList var.toList).bind fun rest =>
    (Path.splitAtLast '.' rest).map fun split => (.ofList split.1, .ofList split.2)

/-- The variable tells about a flag. -/
def isMetadata (var : String) : Bool :=
  (described? var).any fun described => described.2 ∈ suffixes

/-- Whatever the key is, key and suffix are read back from their variable. -/
lemma described?_variableOf (key : String) (h : '.' ∉ suffix.toList) :
    described? (variableOf key suffix) = some (key, suffix) := by
  have hstrip : Path.stripFront "_ALL_RELEASE_FLAGS.".toList (variableOf key suffix).toList =
      some (key.toList ++ '.' :: suffix.toList) := by
    rw [stripFront_eq_some, toList_variableOf, List.append_assoc]
  rw [described?, hstrip, Option.bind_some, Path.splitAtLast_append h, Option.map_some,
    String.ofList_toList, String.ofList_toList]

/-- The metadata variables of all flags, each with its value. -/
lemma get?_metadataVariables {var : String} :
    (metadataVariables flags).get? var = some value ↔ ∃ key flag suffix,
      flags.get? key = some flag ∧ Tells flag suffix value ∧ var = variableOf key suffix := by
  let told (entry : String × FlagState) : List (String × String) :=
    (metadata entry.2).map fun m => (variableOf entry.1 m.1, m.2)
  have hread (entry : String × FlagState) : ((told entry).map Prod.fst).map described? =
      (suffixes.map (Prod.mk entry.1)).map some := by
    have hsuffixes : suffixes = (metadata entry.2).map Prod.fst := rfl
    rw [hsuffixes, List.map_map, List.map_map, List.map_map, List.map_map]
    refine List.map_congr_left fun m hm => ?_
    have hsuffix := spelled_of_mem_suffixes (mem_metadata.mp hm).mem_suffixes
    exact described?_variableOf entry.1 (hsuffix.notMem (by decide))
  have hnodup : ((flags.entries.flatMap told).map Prod.fst).Nodup := by
    refine List.Nodup.of_map described? ?_
    have hpairs : ((flags.entries.flatMap told).map Prod.fst).map described? =
        (flags.names.product suffixes).map some := by
      simp only [List.map_flatMap, hread, NameMap.names, List.product, List.flatMap_map]
    rw [hpairs]
    exact (flags.nodup_names.product (by decide)).map (Option.some_injective _)
  have hmaps : metadataVariables flags = NameMap.ofList (flags.entries.flatMap told) := rfl
  rw [hmaps, NameMap.get?_ofList hnodup, List.mem_flatMap]
  constructor
  · rintro ⟨⟨key, flag⟩, hflag, htold⟩
    obtain ⟨⟨suffix, value⟩, hm, heq⟩ := List.mem_map.mp htold
    cases heq
    exact ⟨key, flag, suffix, NameMap.mem_entries.mp hflag, mem_metadata.mp hm, rfl⟩
  · rintro ⟨key, flag, suffix, hflag, htells, rfl⟩
    exact ⟨(key, flag), NameMap.mem_entries.mpr hflag,
      List.mem_map.mpr ⟨(suffix, value), mem_metadata.mpr htells, rfl⟩⟩

end Makefile

end ReleaseFlags
