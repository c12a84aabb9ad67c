import Mathlib.Data.List.Nodup
import ReleaseFlags.Message.Flag
import ReleaseFlags.Proofs.Json.Values

/-!
# Reading what was written

Each decoder gives back what was written as data, and a decoder of lists does so if the decoder of
the items does.

A message lists its fields in the order of its shape and may leave some out.  Then its members are
taken for its fields, and a name leads to the same data among both (`Fields.exists_ofData`).  A
field that is left out when it is empty is read as the default, which is empty too.
-/

namespace ReleaseFlags

variable {α : Type} {decode : Decoder α} {write : α → Data}

/-! ### Decoders -/

namespace Decoder

@[simp] lemma text_ofText (content : String) : text (.ofText content) = some content := rfl

@[simp] lemma bool_bool (on : Bool) : bool (.bool on) = some on := rfl

/-- If every item is read back, so are several in order. -/
lemma mapM_map {β : Type} {read : β → Option α} {write : α → β}
    (h : ∀ a, read (write a) = some a) (items : List α) :
    (items.map write).mapM read = some items := by
  induction items with
  | nil => rfl
  | cons item items ih =>
    rw [List.map_cons, List.mapM_cons, h, ih]
    rfl

/-- A list is read back if its items are. -/
lemma list_map (h : ∀ a, decode (write a) = some a) (items : List α) :
    list decode (.list (items.map write)) = some items :=
  mapM_map h items

@[simp] lemma texts_ofTexts (contents : List String) :
    texts (.ofTexts contents) = some contents :=
  list_map text_ofText contents

/-- What may be null is read back if nothing else is written as null. -/
lemma nullable_map (h : ∀ a, decode (write a) = some a) (hnull : ∀ a, write a ≠ .null)
    (value : Option α) : nullable decode ((value.map write).getD .null) = some value := by
  cases value with
  | none => rfl
  | some a =>
    change nullable decode (write a) = some (some a)
    rw [nullable, h, Option.map_some]
    exact hnull a

/-- A value is read back from the word that stands for it and for no other. -/
lemma word_ofText {format : Format} {values : List α} {wordOf : α → String}
    (hall : ∀ a, a ∈ values) (hword : ∀ a b, wordOf a = wordOf b → a = b) (a : α) :
    word format values wordOf (.ofText (wordOf a)) = some a := by
  change values.find? (fun value => wordOf value = wordOf a) = some a
  cases hfind : values.find? fun value => wordOf value = wordOf a with
  | none =>
    have hnone := List.find?_eq_none.mp hfind a (hall a)
    simp at hnone
  | some b =>
    have hsome := List.find?_some hfind
    rw [hword b a (by simpa using hsome)]

end Decoder

/-! ### Written data -/

namespace Data

variable {key name content : String} {items : List Data}

@[simp] lemma plain_ofText (content : String) : (ofText content).Plain := .text (some content)

lemma plain_list_map (h : ∀ a, (write a).Plain) (items : List α) :
    (list (items.map write)).Plain := by
  refine .list fun data hmem => ?_
  obtain ⟨item, -, rfl⟩ := List.mem_map.mp hmem
  exact h item

@[simp] lemma plain_ofTexts (contents : List String) : (ofTexts contents).Plain :=
  plain_list_map plain_ofText contents

@[simp] lemma plain_bool (on : Bool) : (bool on).Plain := .bool on

lemma plain_unlessBlank : ∀ member ∈ unlessBlank name content, member.2.Plain := by
  unfold unlessBlank
  split
  · exact nofun
  · simp

lemma plain_unlessEmpty (h : (list items).Plain) :
    ∀ member ∈ unlessEmpty name items, member.2.Plain := by
  unfold unlessEmpty
  split
  · exact nofun
  · simpa using h

@[simp] lemma lookup_unlessBlank : (unlessBlank name content).lookup (some key) =
    if key = name ∧ content ≠ "" then some (ofText content) else none := by
  unfold unlessBlank
  by_cases hcontent : content = ""
  · simp [hcontent]
  · by_cases hkey : key = name
    · simp [hcontent, hkey]
    · simp [hcontent, hkey, List.lookup_cons, beq_false_of_ne hkey]

@[simp] lemma lookup_unlessEmpty : (unlessEmpty name items).lookup (some key) =
    if key = name ∧ items ≠ [] then some (.list items) else none := by
  unfold unlessEmpty
  by_cases hitems : items = []
  · simp [hitems]
  · by_cases hkey : key = name
    · simp [hitems, hkey]
    · simp [hitems, hkey, List.lookup_cons, beq_false_of_ne hkey]

lemma names_unlessBlank : ((unlessBlank name content).map Prod.fst).Sublist [some name] := by
  unfold unlessBlank
  split <;> simp

lemma names_unlessEmpty : ((unlessEmpty name items).map Prod.fst).Sublist [some name] := by
  unfold unlessEmpty
  split <;> simp

end Data

/-! ### Fields -/

namespace Fields

variable {fields : Fields} {name : String}

/-- Members with names of the shape, none of them twice, are taken for the fields. -/
lemma exists_ofMembers {shape : Shape} {members : List (Option String × Data)}
    (hnames : ∀ member ∈ members, ∃ name ∈ shape.names, member.1 = some name)
    (hnodup : (members.map Prod.fst).Nodup) : ∃ fields, ofMembers shape members = some fields ∧
      ∀ name, fields.lookup name = members.lookup (some name) := by
  induction members with
  | nil => exact ⟨[], rfl, fun _ => rfl⟩
  | cons member members ih =>
    obtain ⟨key, value⟩ := member
    obtain ⟨hfirst, hrest⟩ := List.forall_mem_cons.mp hnames
    obtain ⟨name, hname, rfl⟩ := hfirst
    obtain ⟨hnew, hnodup⟩ := List.nodup_cons.mp hnodup
    obtain ⟨fields, hfields, hlookup⟩ := ih hrest hnodup
    have hnone : (fields.lookup name).isSome = false := by
      rw [hlookup, Option.isSome_eq_false_iff, Option.isNone_iff_eq_none, List.lookup_eq_none_iff]
      intro member hmem
      have hne : some name ≠ member.1 := by
        intro heq
        exact hnew (List.mem_map.mpr ⟨member, hmem, heq.symm⟩)
      simpa using hne
    refine ⟨(name, value) :: fields, ?_, fun other => ?_⟩
    · simp [ofMembers, hfields, hname, hnone]
    · rw [List.lookup_cons, List.lookup_cons, hlookup]
      rfl

/-- The members of a message that lists fields of its shape in order are taken for its fields. -/
lemma exists_ofData (format : Format) (shape : Shape) (data : Data)
    {members : List (Option String × Data)} (hdata : data = .record members)
    (hnames : (members.map Prod.fst).Sublist (shape.names.map some))
    (hnodup : shape.names.Nodup) : ∃ fields, ofData format shape data = some fields ∧
      ∀ name, fields.lookup name = members.lookup (some name) := by
  subst hdata
  refine exists_ofMembers (fun member hmem => ?_) ?_
  · obtain ⟨name, hname, heq⟩ :=
      List.mem_map.mp (hnames.subset (List.mem_map_of_mem (f := Prod.fst) hmem))
    exact ⟨name, hname, heq.symm⟩
  · exact hnames.nodup (hnodup.map fun _ _ heq => Option.some.inj heq)

/-- A text that is left out when it is empty is read back. -/
lemma optional_blank {content : String} (hlookup : fields.lookup name =
    if content ≠ "" then some (.ofText content) else none) :
    fields.optional name "" Decoder.text = some content := by
  split at hlookup
  · rw [optional, hlookup]
    exact Decoder.text_ofText content
  · next hblank =>
    rw [optional, hlookup, Decidable.not_not.mp hblank]

/-- A list that is left out when it is empty is read back. -/
lemma optional_empty (h : ∀ a, decode (write a) = some a) {items : List α}
    (hlookup : fields.lookup name =
      if items ≠ [] then some (.list (items.map write)) else none) :
    fields.optional name [] (Decoder.list decode) = some items := by
  split at hlookup
  · rw [optional, hlookup]
    exact Decoder.list_map h items
  · next hempty =>
    rw [optional, hlookup, Decidable.not_not.mp hempty]

end Fields

end ReleaseFlags
