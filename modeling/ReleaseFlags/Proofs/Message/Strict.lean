import ReleaseFlags.Message.File
import ReleaseFlags.Message.Release
import ReleaseFlags.Proofs.Json.Grammar
import ReleaseFlags.Proofs.Message.Fields
import ReleaseFlags.Proofs.Outcome

/-!
# Input files are read strictly

A type of messages is described by a table with one rule for each field: its name, what its data
stands for, and the default if it may be absent (`FieldRule`).  The members of a record are admitted
if all of them are fields, none is given twice, all required ones are there and each stands for
something (`Admits`).  For the four types of input files the decoder accepts exactly these records,
and the message holds what the members stand for and the defaults of the others
(`inputsReadStrictly`).
-/

namespace ReleaseFlags

/-! ### What data stands for -/

namespace Data

inductive IsText : Data → String → Prop
  | intro (content : String) : IsText (.text (some content)) content

inductive IsBool : Data → Bool → Prop
  | intro (on : Bool) : IsBool (.bool on) on

/-- A list of the items that the relation tells. -/
inductive IsList {α : Type} (R : Data → α → Prop) : Data → List α → Prop
  | intro {items : List Data} {values : List α} (h : List.Forall₂ R items values) :
      IsList R (.list items) values

/-- Nothing, or what the relation tells. -/
inductive IsNullable {α : Type} (R : Data → α → Prop) : Data → Option α → Prop
  | null : IsNullable R .null none
  | some {data : Data} {a : α} (h : R data a) : IsNullable R data (some a)

/-- A choice that has no content: its name, or a record with one member, which is null. -/
inductive IsUnit (name : String) : Data → Prop
  | text : IsUnit name (.text (some name))
  | record : IsUnit name (.record [(some name, .null)])

/-- A choice by its word. -/
def IsWord {α : Type} (wordOf : α → String) (data : Data) (a : α) : Prop := data.IsUnit (wordOf a)

/-- A value of a flag: a choice without content, or a record with one member. -/
inductive IsFlagValue : Data → Value → Prop
  | unspecified {data : Data} (h : IsUnit "unspecified_value" data) : IsFlagValue data .unspecified
  | text {data : Data} {content : String} (h : IsText data content) :
      IsFlagValue (.record [(some "string_value", data)]) (.text content)
  | bool {data : Data} {on : Bool} (h : IsBool data on) :
      IsFlagValue (.record [(some "bool_value", data)]) (.bool on)
  | obsolete {data : Data} (h : IsUnit "obsolete" data) : IsFlagValue data .obsolete

end Data

namespace Decoder

/-- What the decoder gives is what the relation tells. -/
def Tells {α : Type} (decode : Decoder α) (R : Data → α → Prop) : Prop :=
  ∀ data a, decode data = some a ↔ R data a

variable {α : Type} {decode : Decoder α} {R : Data → α → Prop} {data : Data}

lemma tells_text : Tells text Data.IsText := by
  intro data content
  constructor
  · intro h
    cases data with
    | text _ =>
      cases h
      exact .intro content
    | _ => cases h
  · rintro ⟨⟩
    rfl

lemma tells_bool : Tells bool Data.IsBool := by
  intro data on
  constructor
  · intro h
    cases data with
    | bool _ =>
      cases h
      exact .intro on
    | _ => cases h
  · rintro ⟨⟩
    rfl

lemma Tells.mapM_eq_some_iff (h : Tells decode R) {items : List Data} {values : List α} :
    items.mapM decode = some values ↔ List.Forall₂ R items values := by
  induction items generalizing values with
  | nil =>
    rw [List.mapM_nil, List.forall₂_nil_left_iff]
    exact ⟨fun heq => (Option.some.inj heq).symm, fun heq => congrArg _ heq.symm⟩
  | cons item items ih =>
    rw [List.mapM_cons, List.forall₂_cons_left_iff]
    constructor
    · intro hread
      obtain ⟨a, ha, hread⟩ := Option.bind_eq_some_iff.mp hread
      obtain ⟨others, hothers, hread⟩ := Option.bind_eq_some_iff.mp hread
      cases hread
      exact ⟨a, others, (h item a).mp ha, ih.mp hothers, rfl⟩
    · rintro ⟨a, others, ha, hothers, rfl⟩
      exact Option.bind_eq_some_iff.mpr ⟨a, (h item a).mpr ha,
        Option.bind_eq_some_iff.mpr ⟨others, ih.mpr hothers, rfl⟩⟩

lemma Tells.list (h : Tells decode R) : Tells (list decode) (Data.IsList R) := by
  intro data values
  constructor
  · intro hread
    cases data with
    | list items => exact .intro (h.mapM_eq_some_iff.mp hread)
    | _ => cases hread
  · rintro ⟨hitems⟩
    exact h.mapM_eq_some_iff.mpr hitems

lemma tells_texts : Tells texts (Data.IsList Data.IsText) := tells_text.list

lemma Tells.nullable (h : Tells decode R) (hnull : ∀ a, ¬ R .null a) :
    Tells (nullable decode) (Data.IsNullable R) := by
  intro data value
  constructor
  · intro hread
    unfold Decoder.nullable at hread
    split at hread
    · cases hread
      exact .null
    · obtain ⟨a, ha, rfl⟩ := Option.map_eq_some_iff.mp hread
      exact .some ((h data a).mp ha)
  · rintro (_ | hdata)
    · rfl
    · rw [Decoder.nullable, (h data _).mpr hdata, Option.map_some]
      rintro rfl
      exact hnull _ hdata

/-- The choices without content. -/
lemma isUnit_iff {name : String} :
    (∃ content, choice data = some (name, content) ∧ isNoContent .json content = true) ↔
      data.IsUnit name := by
  constructor
  · rintro ⟨content, hchoice, hcontent⟩
    unfold choice at hchoice
    split at hchoice
    · cases hchoice
      exact .text
    · cases hchoice
      unfold isNoContent at hcontent
      dsimp only at hcontent
      split at hcontent
      · exact .record
      · next hformat => cases hformat
      · next hformat => cases hformat
      · cases hcontent
    · cases hchoice
  · rintro (_ | _)
    · exact ⟨none, rfl, rfl⟩
    · exact ⟨some .null, rfl, rfl⟩

/-- A value is told by the word that stands for it and for no other. -/
lemma tells_word {values : List α} {wordOf : α → String} (hall : ∀ a, a ∈ values)
    (hword : ∀ a b, wordOf a = wordOf b → a = b) :
    Tells (word .json values wordOf) (Data.IsWord wordOf) := by
  intro data a
  rw [Data.IsWord, ← isUnit_iff, word]
  constructor
  · intro h
    obtain ⟨⟨name, content⟩, hchoice, h⟩ := Option.bind_eq_some_iff.mp h
    dsimp only at h
    split at h
    · next hcontent =>
      have hname : wordOf a = name := by simpa using List.find?_some h
      exact ⟨content, hname ▸ hchoice, hcontent⟩
    · cases h
  · rintro ⟨content, hchoice, hcontent⟩
    refine Option.bind_eq_some_iff.mpr ⟨_, hchoice, ?_⟩
    dsimp only
    rw [if_pos hcontent]
    have hfound : word .json values wordOf (.ofText (wordOf a)) = some a :=
      word_ofText hall hword a
    exact hfound

end Decoder

lemma Workflow.tells_decode : (decode .json).Tells (Data.IsWord word) := by
  refine Decoder.tells_word (fun a => ?_) (fun a b => ?_)
  · cases a <;> decide
  · cases a <;> cases b <;> decide

lemma ReleaseKind.tells_decode : (decode .json).Tells (Data.IsWord word) := by
  refine Decoder.tells_word (fun a => ?_) (fun a b => ?_)
  · cases a <;> decide
  · cases a <;> cases b <;> decide

lemma ReleaseKind.tells_nullable :
    (Decoder.nullable (decode .json)).Tells (Data.IsNullable (Data.IsWord word)) :=
  tells_decode.nullable nofun

lemma Value.tells_decode : (decode .json).Tells Data.IsFlagValue := by
  intro data value
  constructor
  · intro h
    obtain ⟨⟨name, content⟩, hchoice, h⟩ := Option.bind_eq_some_iff.mp h
    have hunit (hcontent : Decoder.isNoContent .json content = true) : data.IsUnit name :=
      Decoder.isUnit_iff.mp ⟨content, hchoice, hcontent⟩
    have hrecord {inner : Data} (hinner : content = some inner) :
        data = .record [(some name, inner)] := by
      unfold Decoder.choice at hchoice
      split at hchoice
      · cases hchoice
        cases hinner
      · cases hchoice
        cases hinner
        rfl
      · cases hchoice
    dsimp only at h
    split at h
    · next hname =>
      subst hname
      split at h
      · next hcontent =>
        cases h
        exact .unspecified (hunit hcontent)
      · cases h
    · split at h
      · next hname =>
        subst hname
        obtain ⟨inner, hinner, h⟩ := Option.bind_eq_some_iff.mp h
        obtain ⟨content, hcontent, h⟩ := Option.bind_eq_some_iff.mp h
        cases h
        exact hrecord hinner ▸ .text ((Decoder.tells_text _ _).mp hcontent)
      · split at h
        · next hname =>
          subst hname
          obtain ⟨inner, hinner, h⟩ := Option.bind_eq_some_iff.mp h
          obtain ⟨on, hon, h⟩ := Option.bind_eq_some_iff.mp h
          cases h
          exact hrecord hinner ▸ .bool ((Decoder.tells_bool _ _).mp hon)
        · split at h
          · next hname =>
            subst hname
            split at h
            · next hcontent =>
              cases h
              exact .obsolete (hunit hcontent)
            · cases h
          · cases h
  · intro h
    cases h with
    | unspecified h => cases h <;> rfl
    | text h =>
      cases h
      rfl
    | bool h =>
      cases h
      rfl
    | obsolete h => cases h <;> rfl

/-! ### Rules for fields -/

/-- The rule for a field of a message. -/
structure FieldRule (μ : Type) where
  name : String
  {α : Type}
  /-- What the message holds in the field. -/
  content : μ → α
  /-- What data in the field stands for. -/
  Denotes : Data → α → Prop
  /-- What an absent field holds; a field without a default is required. -/
  default? : Option α

/-- Named members of a record. -/
abbrev Members := List (Option String × Data)

section Rules

variable {μ : Type} {rules : List (FieldRule μ)} {members : Members} {message : μ}

/-- The members are fields of the message, none of them is given twice, the required ones are there,
and each one stands for something. -/
structure Admits (rules : List (FieldRule μ)) (members : Members) : Prop where
  known : ∀ member ∈ members, ∃ rule ∈ rules, member.1 = some rule.name
  once : (members.map Prod.fst).Nodup
  present : ∀ rule ∈ rules, rule.default? = none → ∃ data, (some rule.name, data) ∈ members
  denotes : ∀ rule ∈ rules, ∀ data, (some rule.name, data) ∈ members → ∃ a, rule.Denotes data a

/-- The members say what the field holds: what its member stands for, or the default if it is
absent. -/
structure FieldRule.Holds (rule : FieldRule μ) (members : Members) (a : rule.α) : Prop where
  present : ∀ data, (some rule.name, data) ∈ members → rule.Denotes data a
  absent : (∀ data, (some rule.name, data) ∉ members) → rule.default? = some a

namespace Fields

variable {shape : Shape} {fields : Fields}

/-- What is found in a field: what its data stands for, or the default. -/
def Finds {α : Type} (fields : Fields) (name : String) (R : Data → α → Prop)
    (default? : Option α) (a : α) : Prop :=
  match fields.lookup name with
  | some data => R data a
  | none => default? = some a

/-- The members that are taken for fields all have names of the shape, unless it is lenient, and no
name comes twice. -/
lemma names_of_ofMembers (hstrict : shape.lenient = false)
    (h : ofMembers shape members = some fields) :
    (∀ member ∈ members, ∃ name ∈ shape.names, member.1 = some name) ∧
      (members.map Prod.fst).Nodup := by
  induction members generalizing fields with
  | nil => exact ⟨nofun, List.nodup_nil⟩
  | cons member members ih =>
    obtain ⟨key, value⟩ := member
    obtain ⟨name, rfl, h⟩ := Option.bind_eq_some_iff.mp h
    obtain ⟨others, hothers, h⟩ := Option.bind_eq_some_iff.mp h
    obtain ⟨hnames, hnodup⟩ := ih hothers
    obtain ⟨_, heq, hlookup⟩ := exists_ofMembers hnames hnodup
    rw [hothers] at heq
    cases heq
    split at h
    · next hname =>
      split at h
      · cases h
      · next hnew =>
        refine ⟨List.forall_mem_cons.mpr ⟨⟨name, hname, rfl⟩, hnames⟩,
          List.nodup_cons.mpr ⟨fun hmem => ?_, hnodup⟩⟩
        obtain ⟨member, hmem, hkey⟩ := List.mem_map.mp hmem
        rw [hlookup, Bool.not_eq_true, Option.isSome_eq_false_iff, Option.isNone_iff_eq_none,
          List.lookup_eq_none_iff] at hnew
        have hne := hnew member hmem
        rw [hkey] at hne
        simp at hne
    · simp only [hstrict, Bool.false_eq_true, if_false] at h
      cases h

lemma lookup_eq_some_iff_mem (hnodup : (members.map Prod.fst).Nodup) {key : Option String}
    {data : Data} : members.lookup key = some data ↔ (key, data) ∈ members := by
  induction members with
  | nil => exact iff_of_false nofun List.not_mem_nil
  | cons member members ih =>
    obtain ⟨other, value⟩ := member
    obtain ⟨hnew, hnodup⟩ := List.nodup_cons.mp hnodup
    rw [List.lookup_cons, List.mem_cons, Prod.mk.injEq]
    by_cases hkey : key = other
    · subst hkey
      have hnotMem : (key, data) ∉ members := fun hmem =>
        hnew (List.mem_map.mpr ⟨_, hmem, rfl⟩)
      simp [hnotMem, eq_comm]
    · simp [hkey, beq_false_of_ne hkey, ih hnodup]

end Fields

/-- Where no name comes twice, what is found in a field is told by its member. -/
lemma FieldRule.finds_iff (rule : FieldRule μ) (hnodup : (members.map Prod.fst).Nodup)
    {fields : Fields} (hlookup : ∀ name, fields.lookup name = members.lookup (some name))
    {a : rule.α} :
    fields.Finds rule.name rule.Denotes rule.default? a ↔ rule.Holds members a := by
  have hmem (data : Data) : members.lookup (some rule.name) = some data ↔
      (some rule.name, data) ∈ members := Fields.lookup_eq_some_iff_mem hnodup
  rw [Fields.Finds, hlookup]
  cases hfind : members.lookup (some rule.name) with
  | none =>
    have habsent (data : Data) : (some rule.name, data) ∉ members := by
      intro hdata
      rw [← hmem data, hfind] at hdata
      cases hdata
    exact ⟨fun h => ⟨fun data hdata => absurd hdata (habsent data), fun _ => h⟩,
      fun h => h.absent habsent⟩
  | some data =>
    have hpresent := (hmem data).mp hfind
    refine ⟨fun h => ⟨fun other hother => ?_, fun habsent => absurd hpresent (habsent data)⟩,
      fun h => h.present data hpresent⟩
    rw [← hmem other, hfind] at hother
    exact Option.some.inj hother ▸ h

/-! ### Decoders that follow their rules -/

/-- The decoder finds in each field what the rules say, and every choice of contents is that of a
message. -/
structure FollowsRules (rules : List (FieldRule μ)) (shape : Shape) (decode : Decoder μ) :
    Prop where
  strict : shape.lenient = false
  names_eq : shape.names = rules.map FieldRule.name
  decode_eq_some_iff : ∀ data message, decode data = some message ↔
    ∃ fields, Fields.ofData .json shape data = some fields ∧
      ∀ rule ∈ rules, fields.Finds rule.name rule.Denotes rule.default? (rule.content message)
  exists_message : ∀ P : (rule : FieldRule μ) → rule.α → Prop,
    (∀ rule ∈ rules, ∃ a, P rule a) → ∃ message, ∀ rule ∈ rules, P rule (rule.content message)

namespace FollowsRules

variable {shape : Shape} {decode : Decoder μ} (h : FollowsRules rules shape decode)
include h

/-- The members are taken for the fields exactly if they are known and none is given twice. -/
lemma ofMembers_iff : (∃ fields, Fields.ofMembers shape members = some fields ∧
      ∀ name, fields.lookup name = members.lookup (some name)) ↔
    (∀ member ∈ members, ∃ rule ∈ rules, member.1 = some rule.name) ∧
      (members.map Prod.fst).Nodup := by
  have hknown (member : Option String × Data) : (∃ name ∈ shape.names, member.1 = some name) ↔
      ∃ rule ∈ rules, member.1 = some rule.name := by
    rw [h.names_eq]
    simp
  simp only [← hknown]
  constructor
  · rintro ⟨fields, hfields, -⟩
    exact Fields.names_of_ofMembers h.strict hfields
  · rintro ⟨hnames, hnodup⟩
    exact Fields.exists_ofMembers hnames hnodup

/-- What is decoded from a record. -/
lemma decode_record_iff : decode (.record members) = some message ↔
    Admits rules members ∧ ∀ rule ∈ rules, rule.Holds members (rule.content message) := by
  rw [h.decode_eq_some_iff]
  constructor
  · rintro ⟨fields, hfields, hfinds⟩
    obtain ⟨hnames, hnodup⟩ := Fields.names_of_ofMembers h.strict hfields
    obtain ⟨_, heq, hlookup⟩ := Fields.exists_ofMembers hnames hnodup
    cases hfields.symm.trans heq
    have hholds (rule : FieldRule μ) (hrule : rule ∈ rules) :
        rule.Holds members (rule.content message) :=
      (rule.finds_iff hnodup hlookup).mp (hfinds rule hrule)
    obtain ⟨hknown, -⟩ := h.ofMembers_iff.mp ⟨fields, hfields, hlookup⟩
    refine ⟨⟨hknown, hnodup, fun rule hrule hrequired => ?_, fun rule hrule data hdata => ?_⟩,
      hholds⟩
    · by_contra habsent
      have hdefault := (hholds rule hrule).absent fun data hdata => habsent ⟨data, hdata⟩
      rw [hrequired] at hdefault
      cases hdefault
    · exact ⟨_, (hholds rule hrule).present data hdata⟩
  · rintro ⟨hadmits, hholds⟩
    obtain ⟨fields, hfields, hlookup⟩ := h.ofMembers_iff.mpr ⟨hadmits.known, hadmits.once⟩
    exact ⟨fields, hfields, fun rule hrule =>
      (rule.finds_iff hadmits.once hlookup).mpr (hholds rule hrule)⟩

/-- Admitted members are those of a message. -/
lemma exists_decode (hadmits : Admits rules members) :
    ∃ message, decode (.record members) = some message := by
  have hholds (rule : FieldRule μ) (hrule : rule ∈ rules) : ∃ a, rule.Holds members a := by
    by_cases hpresent : ∃ data, (some rule.name, data) ∈ members
    · obtain ⟨data, hdata⟩ := hpresent
      obtain ⟨a, ha⟩ := hadmits.denotes rule hrule data hdata
      refine ⟨a, fun other hother => ?_, fun habsent => absurd hdata (habsent data)⟩
      -- there is no other member of the name
      rw [← Fields.lookup_eq_some_iff_mem hadmits.once] at hdata hother
      cases hdata.symm.trans hother
      exact ha
    · cases hdefault : rule.default? with
      | none => exact absurd (hadmits.present rule hrule hdefault) hpresent
      | some a =>
        exact ⟨a, fun data hdata => absurd ⟨data, hdata⟩ hpresent, fun _ => hdefault⟩
  obtain ⟨message, hmessage⟩ := h.exists_message (fun rule a => rule.Holds members a) hholds
  exact ⟨message, h.decode_record_iff.mpr ⟨hadmits, hmessage⟩⟩

end FollowsRules

section Fields

variable {α : Type} {decode : Decoder α} {R : Data → α → Prop} {fields : Fields} {name : String}
  {a default : α}

lemma Decoder.Tells.required (h : decode.Tells R) :
    fields.required name decode = some a ↔ fields.Finds name R none a := by
  rw [Fields.required, Fields.Finds]
  cases fields.lookup name with
  | none => exact iff_of_false nofun nofun
  | some data => exact h data a

lemma Decoder.Tells.optional (h : decode.Tells R) :
    fields.optional name default decode = some a ↔ fields.Finds name R (some default) a := by
  rw [Fields.optional, Fields.Finds]
  cases fields.lookup name with
  | none => exact .rfl
  | some data => exact h data a

end Fields

end Rules

/-! ### The types of input files -/

namespace FlagDeclaration

/-- The fields of a declaration. -/
def rules : List (FieldRule FlagDeclaration) := [
  ⟨"name", name, Data.IsText, none⟩,
  ⟨"namespace", namespaceName, Data.IsText, none⟩,
  ⟨"description", description, Data.IsText, some ""⟩,
  ⟨"bugs", bugs, Data.IsList Data.IsText, some []⟩,
  ⟨"value", value, Data.IsFlagValue, some .unspecified⟩,
  ⟨"workflow", workflow, Data.IsWord Workflow.word, some .unspecified⟩,
  ⟨"containers", containers, Data.IsList Data.IsText, some []⟩]

lemma followsRules : FollowsRules rules shape (decode .json) where
  strict := rfl
  names_eq := rfl
  decode_eq_some_iff data message := by
    simp only [decode, Option.bind_eq_bind, Option.bind_eq_some_iff, Decoder.tells_text.required,
      Decoder.tells_text.optional, Decoder.tells_texts.optional, Value.tells_decode.optional,
      Workflow.tells_decode.optional, rules, List.forall_mem_cons, List.not_mem_nil,
      false_implies, implies_true, and_true]
    refine exists_congr fun fields => and_congr_right fun _ => ⟨?_, ?_⟩
    · rintro ⟨_, hname, _, hnamespaceName, _, hdescription, _, hbugs, _, hvalue, _, hworkflow,
        _, hcontainers, ⟨⟩⟩
      exact ⟨hname, hnamespaceName, hdescription, hbugs, hvalue, hworkflow, hcontainers⟩
    · rintro ⟨hname, hnamespaceName, hdescription, hbugs, hvalue, hworkflow, hcontainers⟩
      exact ⟨_, hname, _, hnamespaceName, _, hdescription, _, hbugs, _, hvalue, _, hworkflow,
        _, hcontainers, rfl⟩
  exists_message P h := by
    simp only [rules, List.forall_mem_cons, List.not_mem_nil, false_implies, implies_true,
      and_true] at h ⊢
    obtain ⟨⟨name, hname⟩, ⟨namespaceName, hnamespaceName⟩, ⟨description, hdescription⟩,
      ⟨bugs, hbugs⟩, ⟨value, hvalue⟩, ⟨workflow, hworkflow⟩, containers, hcontainers⟩ := h
    exact ⟨⟨name, namespaceName, description, bugs, value, workflow, containers⟩,
      hname, hnamespaceName, hdescription, hbugs, hvalue, hworkflow, hcontainers⟩

end FlagDeclaration

namespace FlagValueFile

/-- The fields of a file with a value. -/
def rules : List (FieldRule FlagValueFile) := [
  ⟨"name", name, Data.IsText, none⟩,
  ⟨"value", value, Data.IsFlagValue, some .unspecified⟩,
  ⟨"redacted", redacted, Data.IsBool, some false⟩]

lemma followsRules : FollowsRules rules shape (decode .json) where
  strict := rfl
  names_eq := rfl
  decode_eq_some_iff data message := by
    simp only [decode, Option.bind_eq_bind, Option.bind_eq_some_iff, Decoder.tells_text.required,
      Value.tells_decode.optional, Decoder.tells_bool.optional, rules, List.forall_mem_cons,
      List.not_mem_nil, false_implies, implies_true, and_true]
    refine exists_congr fun fields => and_congr_right fun _ => ⟨?_, ?_⟩
    · rintro ⟨_, hname, _, hvalue, _, hredacted, ⟨⟩⟩
      exact ⟨hname, hvalue, hredacted⟩
    · rintro ⟨hname, hvalue, hredacted⟩
      exact ⟨_, hname, _, hvalue, _, hredacted, rfl⟩
  exists_message P h := by
    simp only [rules, List.forall_mem_cons, List.not_mem_nil, false_implies, implies_true,
      and_true] at h ⊢
    obtain ⟨⟨name, hname⟩, ⟨value, hvalue⟩, redacted, hredacted⟩ := h
    exact ⟨⟨name, value, redacted⟩, hname, hvalue, hredacted⟩

end FlagValueFile

namespace Alias

/-- The fields of an alias. -/
def rules : List (FieldRule Alias) := [
  ⟨"name", name, Data.IsText, none⟩,
  ⟨"target", target, Data.IsText, none⟩]

lemma followsRules : FollowsRules rules shape (decode .json) where
  strict := rfl
  names_eq := rfl
  decode_eq_some_iff data message := by
    simp only [decode, Option.bind_eq_bind, Option.bind_eq_some_iff, Decoder.tells_text.required,
      rules, List.forall_mem_cons, List.not_mem_nil, false_implies, implies_true, and_true]
    refine exists_congr fun fields => and_congr_right fun _ => ⟨?_, ?_⟩
    · rintro ⟨_, hname, _, htarget, ⟨⟩⟩
      exact ⟨hname, htarget⟩
    · rintro ⟨hname, htarget⟩
      exact ⟨_, hname, _, htarget, rfl⟩
  exists_message P h := by
    simp only [rules, List.forall_mem_cons, List.not_mem_nil, false_implies, implies_true,
      and_true] at h ⊢
    obtain ⟨⟨name, hname⟩, target, htarget⟩ := h
    exact ⟨⟨name, target⟩, hname, htarget⟩

/-- An alias is a record by its rules, or the list of its two texts. -/
inductive IsWritten : Data → Alias → Prop
  | record {members : Members} {a : Alias} (hadmits : Admits rules members)
      (h : ∀ rule ∈ rules, rule.Holds members (rule.content a)) : IsWritten (.record members) a
  | list {first second : Data} {name target : String} (hname : first.IsText name)
      (htarget : second.IsText target) : IsWritten (.list [first, second]) ⟨name, target⟩

lemma tells_decode : (decode .json).Tells IsWritten := by
  intro data a
  constructor
  · intro h
    cases data with
    | record members =>
      obtain ⟨hadmits, hholds⟩ := followsRules.decode_record_iff.mp h
      exact .record hadmits hholds
    | list items =>
      -- the items are the fields in order, all of them and no more
      match items, h with
      | [], h => cases h
      | [first], h =>
        obtain ⟨name, hname, h⟩ := Option.bind_eq_some_iff.mp h
        cases h
      | [first, second], h =>
        obtain ⟨name, hname, h⟩ := Option.bind_eq_some_iff.mp h
        obtain ⟨target, htarget, h⟩ := Option.bind_eq_some_iff.mp h
        cases h
        exact .list ((Decoder.tells_text _ _).mp hname) ((Decoder.tells_text _ _).mp htarget)
      | first :: second :: third :: more, h =>
        have hnone :
            Fields.ofData .json shape (.list (first :: second :: third :: more)) = none := by
          simp [Fields.ofData, shape]
        obtain ⟨fields, hfields, -⟩ := (followsRules.decode_eq_some_iff _ _).mp h
        cases hnone.symm.trans hfields
    | _ => cases h
  · intro h
    cases h with
    | record hadmits hholds => exact followsRules.decode_record_iff.mpr ⟨hadmits, hholds⟩
    | list hname htarget =>
      cases hname
      cases htarget
      rfl

end Alias

namespace DirectoryMap

/-- The fields of a map file. -/
def rules : List (FieldRule DirectoryMap) := [
  ⟨"description", description, Data.IsText, some ""⟩,
  ⟨"default_containers", defaultContainers, Data.IsList Data.IsText, some []⟩,
  ⟨"aliases", aliases, Data.IsList Alias.IsWritten, some []⟩]

lemma followsRules : FollowsRules rules shape (decode .json) where
  strict := rfl
  names_eq := rfl
  decode_eq_some_iff data message := by
    simp only [decode, Option.bind_eq_bind, Option.bind_eq_some_iff, Decoder.tells_text.optional,
      Decoder.tells_texts.optional, Alias.tells_decode.list.optional, rules, List.forall_mem_cons,
      List.not_mem_nil, false_implies, implies_true, and_true]
    refine exists_congr fun fields => and_congr_right fun _ => ⟨?_, ?_⟩
    · rintro ⟨_, hdescription, _, hdefaultContainers, _, haliases, ⟨⟩⟩
      exact ⟨hdescription, hdefaultContainers, haliases⟩
    · rintro ⟨hdescription, hdefaultContainers, haliases⟩
      exact ⟨_, hdescription, _, hdefaultContainers, _, haliases, rfl⟩
  exists_message P h := by
    simp only [rules, List.forall_mem_cons, List.not_mem_nil, false_implies, implies_true,
      and_true] at h ⊢
    obtain ⟨⟨description, hdescription⟩, ⟨defaultContainers, hdefaultContainers⟩,
      aliases, haliases⟩ := h
    exact ⟨⟨description, defaultContainers, aliases⟩, hdescription, hdefaultContainers, haliases⟩

end DirectoryMap

namespace ReleaseFile

/-- The fields of a release file. -/
def rules : List (FieldRule ReleaseFile) := [
  ⟨"name", name, Data.IsText, none⟩,
  ⟨"description", description, Data.IsText, some ""⟩,
  ⟨"inherits", inherits, Data.IsList Data.IsText, some []⟩,
  ⟨"aconfig_value_sets", aconfigValueSets, Data.IsList Data.IsText, some []⟩,
  ⟨"aconfig_flags_only", aconfigFlagsOnly, Data.IsBool, some false⟩,
  ⟨"prior_stages", priorStages, Data.IsList Data.IsText, some []⟩,
  ⟨"disallow_lunch_use", disallowLunchUse, Data.IsBool, some false⟩,
  ⟨"release_config_type", kind, Data.IsNullable (Data.IsWord ReleaseKind.word), some none⟩]

lemma followsRules : FollowsRules rules shape (decode .json) where
  strict := rfl
  names_eq := rfl
  decode_eq_some_iff data message := by
    simp only [decode, Option.bind_eq_bind, Option.bind_eq_some_iff, Decoder.tells_text.required,
      Decoder.tells_text.optional, Decoder.tells_texts.optional, Decoder.tells_bool.optional,
      ReleaseKind.tells_nullable.optional, rules, List.forall_mem_cons, List.not_mem_nil,
      false_implies, implies_true, and_true]
    refine exists_congr fun fields => and_congr_right fun _ => ⟨?_, ?_⟩
    · rintro ⟨_, hname, _, hdescription, _, hinherits, _, haconfigValueSets, _, haconfigFlagsOnly,
        _, hpriorStages, _, hdisallowLunchUse, _, hkind, ⟨⟩⟩
      exact ⟨hname, hdescription, hinherits, haconfigValueSets, haconfigFlagsOnly, hpriorStages,
        hdisallowLunchUse, hkind⟩
    · rintro ⟨hname, hdescription, hinherits, haconfigValueSets, haconfigFlagsOnly, hpriorStages,
        hdisallowLunchUse, hkind⟩
      exact ⟨_, hname, _, hdescription, _, hinherits, _, haconfigValueSets, _, haconfigFlagsOnly,
        _, hpriorStages, _, hdisallowLunchUse, _, hkind, rfl⟩
  exists_message P h := by
    simp only [rules, List.forall_mem_cons, List.not_mem_nil, false_implies, implies_true,
      and_true] at h ⊢
    obtain ⟨⟨name, hname⟩, ⟨description, hdescription⟩, ⟨inherits, hinherits⟩,
      ⟨aconfigValueSets, haconfigValueSets⟩, ⟨aconfigFlagsOnly, haconfigFlagsOnly⟩,
      ⟨priorStages, hpriorStages⟩, ⟨disallowLunchUse, hdisallowLunchUse⟩, kind, hkind⟩ := h
    exact ⟨⟨name, description, inherits, aconfigValueSets, aconfigFlagsOnly, priorStages,
      disallowLunchUse, kind⟩,
      hname, hdescription, hinherits, haconfigValueSets, haconfigFlagsOnly, hpriorStages,
      hdisallowLunchUse, hkind⟩

end ReleaseFile

/-! ### Input files -/

/-- The type of messages is read strictly from the record, at the path and with the content of a
file. -/
structure ReadStrictly {μ : Type} (rules : List (FieldRule μ)) (decode : Format → Decoder μ)
    (path : Path) (content : String) (members : Members) : Prop where
  /-- A message is read exactly if all members are admitted. -/
  succeeds_iff : (∃ message, parseFile decode path content = .ok message) ↔ Admits rules members
  /-- It is the one that holds what the members stand for, and the defaults of absent fields. -/
  ok_iff : ∀ message, parseFile decode path content = .ok message ↔
    Admits rules members ∧ ∀ rule ∈ rules, rule.Holds members (rule.content message)
  /-- Otherwise the file is reported. -/
  refused : ¬ Admits rules members →
    parseFile decode path content = .error (.parse .json path.text)

section ReadStrictly

variable {path : Path} {content : String} {members : Members}
  (hpath : Format.ofPath path = .ok .json)
  (hdocument : Json.IsDocument content.toList (.record members))
include hpath hdocument

lemma parseFile_eq {μ : Type} (decode : Format → Decoder μ) :
    parseFile decode path content = match decode .json (.record members) with
      | some message => .ok message
      | none => .error (.parse .json path.text) := by
  have hread : Format.json.read content = some (.record members) :=
    Json.read_eq_some_iff.mpr hdocument
  rw [parseFile, hpath]
  change (match Format.json.read content >>= decode .json with
    | some message => pure message
    | none => throw (.parse .json path.text) : Except FileError μ) = _
  rw [hread]
  rfl

lemma FollowsRules.readStrictly {μ : Type} {rules : List (FieldRule μ)} {shape : Shape}
    {decode : Format → Decoder μ} (h : FollowsRules rules shape (decode .json)) :
    ReadStrictly rules decode path content members := by
  have hparse := parseFile_eq hpath hdocument decode
  have hok (message : μ) : parseFile decode path content = .ok message ↔
      decode .json (.record members) = some message := by
    rw [hparse]
    cases decode .json (.record members) with
    | none => exact iff_of_false nofun nofun
    | some found => exact ⟨fun heq => congrArg _ (Except.ok.inj heq),
        fun heq => congrArg _ (Option.some.inj heq)⟩
  refine ⟨⟨?_, fun hadmits => ?_⟩, fun message => ?_, fun hrefused => ?_⟩
  · rintro ⟨message, hmessage⟩
    exact (h.decode_record_iff.mp ((hok message).mp hmessage)).1
  · obtain ⟨message, hmessage⟩ := h.exists_decode hadmits
    exact ⟨message, (hok message).mpr hmessage⟩
  · exact (hok message).trans h.decode_record_iff
  · cases hdecode : decode .json (.record members) with
    | none => rw [hparse, hdecode]
    | some message => exact absurd (h.decode_record_iff.mp hdecode).1 hrefused

end ReadStrictly

/-- The four types of input files are read strictly. -/
structure InputsReadStrictly (path : Path) (content : String) (members : Members) : Prop where
  declaration :
    ReadStrictly FlagDeclaration.rules FlagDeclaration.decode path content members
  map : ReadStrictly DirectoryMap.rules DirectoryMap.decode path content members
  release : ReadStrictly ReleaseFile.rules ReleaseFile.decode path content members
  value : ReadStrictly FlagValueFile.rules FlagValueFile.decode path content members

/-- **Input files are read strictly.**  From a document whose value is a record, a message is read
exactly if the members are fields of its type, none given twice, with all required ones among them,
and each stands for something; the message holds that, and the defaults of the other fields. -/
theorem inputsReadStrictly {path : Path} {content : String} {members : Members}
    (hpath : Format.ofPath path = .ok .json)
    (hdocument : Json.IsDocument content.toList (.record members)) :
    InputsReadStrictly path content members where
  declaration := FlagDeclaration.followsRules.readStrictly hpath hdocument
  map := DirectoryMap.followsRules.readStrictly hpath hdocument
  release := ReleaseFile.followsRules.readStrictly hpath hdocument
  value := FlagValueFile.followsRules.readStrictly hpath hdocument

/-- The members of a file with a value, which are not those of a declaration. -/
def redactedMembers : Members := [(some "redacted", .bool true), (some "name", .ofText "F")]

theorem inputsReadStrictly_redacted :
    InputsReadStrictly ⟨"F.json"⟩ (Json.print (.record redactedMembers)) redactedMembers ∧
      parseFile FlagValueFile.decode ⟨"F.json"⟩ (Json.print (.record redactedMembers)) =
        .ok ⟨"F", .unspecified, true⟩ ∧
      Admits FlagValueFile.rules redactedMembers ∧
      ¬ Admits FlagDeclaration.rules redactedMembers := by
  have hpath : Format.ofPath ⟨"F.json"⟩ = .ok .json := by decide +kernel
  have hplain : (Data.record redactedMembers).Plain := .record (by simp [redactedMembers])
  have hread : Json.read (Json.print (.record redactedMembers) ++ "") =
      some (.record redactedMembers) := Json.read_print hplain rfl
  rw [String.append_empty] at hread
  have hdocument := Json.read_eq_some_iff.mp hread
  have hstrict := inputsReadStrictly hpath hdocument
  have hvalue : parseFile FlagValueFile.decode ⟨"F.json"⟩
      (Json.print (.record redactedMembers)) = .ok ⟨"F", .unspecified, true⟩ := by
    rw [parseFile_eq hpath hdocument]
    rfl
  refine ⟨hstrict, hvalue, hstrict.value.succeeds_iff.mp ⟨_, hvalue⟩, fun hadmits => ?_⟩
  obtain ⟨rule, hrule, hname⟩ := hadmits.known _ List.mem_cons_self
  revert rule
  simp [FlagDeclaration.rules]

end ReleaseFlags
