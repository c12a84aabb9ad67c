import ReleaseFlags.Message.File
import ReleaseFlags.Message.Release
import ReleaseFlags.Proofs.Message.Fields
import ReleaseFlags.Proofs.NameMap
import ReleaseFlags.Proofs.Outcome

/-!
# Messages are read back from their files

For each type of message there are two facts: its data holds no number (`plain_data`), and decoding
the data gives the message (`decode_data`).  They are proved from the inside out, and they do not
depend on the format.  With what is known about JSON documents they give the main result: a message
that is written to a file with the extension of JSON is read back from it (`messages_roundTrip`).
-/

namespace ReleaseFlags

variable {format : Format}

/-! ### Words and values -/

namespace Value

@[simp] lemma plain_data (value : Value) : value.data.Plain := by
  cases value with
  | unspecified => exact Data.plain_ofText _
  | text content => exact .record (by simp)
  | bool on => exact .record (by simp)
  | obsolete => exact Data.plain_ofText _

@[simp] lemma decode_data (value : Value) : decode format value.data = some value := by
  cases value <;> rfl

end Value

namespace Workflow

@[simp] lemma plain_data (workflow : Workflow) : workflow.data.Plain :=
  Data.plain_ofText workflow.word

@[simp] lemma decode_data (workflow : Workflow) : decode format workflow.data = some workflow := by
  refine Decoder.word_ofText (fun a => ?_) (fun a b => ?_) workflow
  · cases a <;> decide
  · cases a <;> cases b <;> decide

end Workflow

namespace ReleaseKind

@[simp] lemma plain_data (kind : ReleaseKind) : kind.data.Plain := Data.plain_ofText kind.word

@[simp] lemma decode_data (kind : ReleaseKind) : decode format kind.data = some kind := by
  refine Decoder.word_ofText (fun a => ?_) (fun a b => ?_) kind
  · cases a <;> decide
  · cases a <;> cases b <;> decide

lemma data_ne_null (kind : ReleaseKind) : kind.data ≠ .null := nofun

end ReleaseKind

/-! ### Messages about flags -/

namespace FlagDeclaration

@[simp] lemma plain_data (declaration : FlagDeclaration) : declaration.data.Plain := by
  have hbugs := Data.plain_ofTexts declaration.bugs
  refine .record ?_
  simp only [List.forall_mem_append]
  refine ⟨⟨⟨?_, Data.plain_unlessBlank⟩, Data.plain_unlessEmpty hbugs⟩, ?_⟩
  · simp
  · simp

@[simp] lemma decode_data (declaration : FlagDeclaration) :
    decode format declaration.data = some declaration := by
  have hnames : shape.names.map some = [some "name", some "namespace"] ++ [some "description"] ++
    [some "bugs"] ++ [some "value", some "workflow", some "containers"] := rfl
  obtain ⟨fields, hfields, hlookup⟩ := Fields.exists_ofData format shape declaration.data rfl
    (by
      rw [hnames, List.map_append, List.map_append, List.map_append]
      exact (((List.Sublist.refl _).append Data.names_unlessBlank).append
        Data.names_unlessEmpty).append (.refl _))
    (by decide)
  have hdescription : fields.optional "description" "" Decoder.text =
      some declaration.description :=
    Fields.optional_blank (by simp [hlookup, List.lookup_append, List.lookup_cons])
  have hbugs : fields.optional "bugs" [] Decoder.texts = some declaration.bugs :=
    Fields.optional_empty Decoder.text_ofText
      (by simp [hlookup, List.lookup_append, List.lookup_cons])
  simp only [decode, hfields, Option.bind_eq_bind, Option.bind_some, hdescription, hbugs]
  simp [Fields.required, Fields.optional, hlookup, List.lookup_append, List.lookup_cons]

end FlagDeclaration

namespace FlagValueFile

@[simp] lemma plain_data (file : FlagValueFile) : file.data.Plain := .record (by simp)

@[simp] lemma decode_data (file : FlagValueFile) : decode format file.data = some file := by
  obtain ⟨fields, hfields, hlookup⟩ :=
    Fields.exists_ofData format shape file.data rfl (.refl _) (by decide)
  simp [decode, hfields, Fields.required, Fields.optional, hlookup, List.lookup_cons]

end FlagValueFile

namespace Tracepoint

@[simp] lemma plain_data (point : Tracepoint) : point.data.Plain := .record (by simp)

@[simp] lemma decode_data (point : Tracepoint) : decode format point.data = some point := by
  obtain ⟨fields, hfields, hlookup⟩ :=
    Fields.exists_ofData format shape point.data rfl (.refl _) (by decide)
  simp [decode, hfields, Fields.required, hlookup, List.lookup_cons]

end Tracepoint

namespace FlagReport

@[simp] lemma plain_data (report : FlagReport) : report.data.Plain := by
  have htraces := Data.plain_list_map Tracepoint.plain_data report.traces
  refine .record ?_
  simp only [List.forall_mem_append]
  refine ⟨?_, Data.plain_unlessEmpty htraces⟩
  simp

@[simp] lemma decode_data (report : FlagReport) : decode format report.data = some report := by
  have hnames : shape.names.map some =
    [some "flag_declaration", some "value"] ++ [some "traces"] := rfl
  obtain ⟨fields, hfields, hlookup⟩ := Fields.exists_ofData format shape report.data rfl
    (by
      rw [hnames, List.map_append]
      exact (List.Sublist.refl _).append Data.names_unlessEmpty)
    (by decide)
  have htraces : fields.optional "traces" [] (Decoder.list (Tracepoint.decode format)) =
      some report.traces :=
    Fields.optional_empty Tracepoint.decode_data (by simp [hlookup, List.lookup_cons])
  simp only [decode, hfields, Option.bind_eq_bind, Option.bind_some, htraces]
  simp [Fields.required, hlookup, List.lookup_cons]

/-- A list of reports is read back. -/
@[simp] lemma list_decode (reports : List FlagReport) :
    Decoder.list (decode format) (.list (reports.map data)) = some reports :=
  Decoder.list_map decode_data reports

@[simp] lemma plain_list (reports : List FlagReport) : (Data.list (reports.map data)).Plain :=
  Data.plain_list_map plain_data reports

end FlagReport

namespace PartitionReport

@[simp] lemma plain_data (report : PartitionReport) : report.data.Plain := .record (by simp)

@[simp] lemma decode_data (report : PartitionReport) : decode format report.data = some report := by
  obtain ⟨fields, hfields, hlookup⟩ :=
    Fields.exists_ofData format shape report.data rfl (.refl _) (by decide)
  simp [decode, hfields, Fields.required, hlookup]

end PartitionReport

/-! ### Files of a config directory -/

namespace Alias

@[simp] lemma plain_data (a : Alias) : a.data.Plain := .record (by simp)

@[simp] lemma decode_data (a : Alias) : decode format a.data = some a := by
  obtain ⟨fields, hfields, hlookup⟩ :=
    Fields.exists_ofData format shape a.data rfl (.refl _) (by decide)
  simp [decode, hfields, Fields.required, hlookup, List.lookup_cons]

end Alias

namespace DirectoryMap

@[simp] lemma plain_data (map : DirectoryMap) : map.data.Plain := by
  have haliases := Data.plain_list_map Alias.plain_data map.aliases
  refine .record ?_
  simp only [List.forall_mem_append]
  refine ⟨⟨Data.plain_unlessBlank, ?_⟩, Data.plain_unlessEmpty haliases⟩
  simp

@[simp] lemma decode_data (map : DirectoryMap) : decode format map.data = some map := by
  have hnames : shape.names.map some =
    [some "description"] ++ [some "default_containers"] ++ [some "aliases"] := rfl
  obtain ⟨fields, hfields, hlookup⟩ := Fields.exists_ofData format shape map.data rfl
    (by
      rw [hnames, List.map_append, List.map_append]
      exact (Data.names_unlessBlank.append (.refl _)).append Data.names_unlessEmpty)
    (by decide)
  have hdescription : fields.optional "description" "" Decoder.text = some map.description :=
    Fields.optional_blank (by simp [hlookup, List.lookup_append, List.lookup_cons])
  have haliases : fields.optional "aliases" [] (Decoder.list (Alias.decode format)) =
      some map.aliases :=
    Fields.optional_empty Alias.decode_data
      (by simp [hlookup, List.lookup_append, List.lookup_cons])
  simp only [decode, hfields, Option.bind_eq_bind, Option.bind_some, hdescription, haliases]
  simp [Fields.optional, hlookup, List.lookup_append]

end DirectoryMap

namespace ReleaseFile

@[simp] lemma plain_data (file : ReleaseFile) : file.data.Plain := by
  have hkind : ((file.kind.map ReleaseKind.data).getD .null).Plain := by
    cases file.kind with
    | none => exact .null
    | some kind => exact kind.plain_data
  exact .record (by simp [hkind])

@[simp] lemma decode_data (file : ReleaseFile) : decode format file.data = some file := by
  obtain ⟨fields, hfields, hlookup⟩ :=
    Fields.exists_ofData format shape file.data rfl (.refl _) (by decide)
  have hkind : Decoder.nullable (ReleaseKind.decode format)
      ((file.kind.map ReleaseKind.data).getD .null) = some file.kind :=
    Decoder.nullable_map ReleaseKind.decode_data ReleaseKind.data_ne_null file.kind
  simp [decode, hfields, Fields.required, Fields.optional, hlookup, List.lookup_cons, hkind]

end ReleaseFile

/-! ### Reports about release configs -/

namespace ReleaseReport

@[simp] lemma plain_data (report : ReleaseReport) : report.data.Plain := .record (by simp)

@[simp] lemma decode_data (report : ReleaseReport) : decode format report.data = some report := by
  obtain ⟨fields, hfields, hlookup⟩ :=
    Fields.exists_ofData format shape report.data rfl (.refl _) (by decide)
  simp [decode, hfields, Fields.required, Fields.optional, hlookup, List.lookup_cons]

end ReleaseReport

namespace CombinedReport

lemma plain_maps (maps : NameMap DirectoryMap) :
    (Data.record (maps.entries.map fun entry => (some entry.1, entry.2.data))).Plain := by
  refine .record fun member hmem => ?_
  obtain ⟨entry, -, rfl⟩ := List.mem_map.mp hmem
  exact entry.2.plain_data

/-- The map files are listed by directory, so no two of them are taken for one. -/
lemma decodeMaps_data (maps : NameMap DirectoryMap) :
    decodeMaps format (.record (maps.entries.map fun entry => (some entry.1, entry.2.data))) =
      some maps := by
  rw [decodeMaps, Decoder.mapM_map, Option.bind_eq_bind, Option.bind_some, NameMap.ofList_entries]
  · rfl
  · intro entry
    simp

@[simp] lemma plain_data (report : CombinedReport) : report.data.Plain := by
  have hothers := Data.plain_list_map ReleaseReport.plain_data report.others
  exact .record (by simp [hothers, plain_maps])

@[simp] lemma decode_data (report : CombinedReport) : decode format report.data = some report := by
  obtain ⟨fields, hfields, hlookup⟩ :=
    Fields.exists_ofData format shape report.data rfl (.refl _) (by decide)
  have hothers : Decoder.list (ReleaseReport.decode format)
      (.list (report.others.map ReleaseReport.data)) = some report.others :=
    Decoder.list_map ReleaseReport.decode_data report.others
  simp [decode, hfields, Fields.required, Fields.optional, hlookup, List.lookup_cons, hothers,
    decodeMaps_data]

end CombinedReport

namespace ContributionReport

@[simp] lemma plain_data (report : ContributionReport) : report.data.Plain := .record (by simp)

@[simp] lemma decode_data (report : ContributionReport) :
    decode format report.data = some report := by
  obtain ⟨fields, hfields, hlookup⟩ :=
    Fields.exists_ofData format shape report.data rfl (.refl _) (by decide)
  simp [decode, hfields, Fields.required, hlookup, List.lookup_cons]

end ContributionReport

namespace ContributionReports

@[simp] lemma plain_data (reports : ContributionReports) : reports.data.Plain := by
  have hreports := Data.plain_list_map ContributionReport.plain_data reports.reports
  exact .record (by simp [hreports])

@[simp] lemma decode_data (reports : ContributionReports) :
    decode format reports.data = some reports := by
  obtain ⟨fields, hfields, hlookup⟩ :=
    Fields.exists_ofData format shape reports.data rfl (.refl _) (by decide)
  have hreports : Decoder.list (ContributionReport.decode format)
      (.list (reports.reports.map ContributionReport.data)) = some reports.reports :=
    Decoder.list_map ContributionReport.decode_data reports.reports
  simp [decode, hfields, Fields.required, hlookup, hreports]

end ContributionReports

/-! ### Files -/

/-- Every message is rendered at the path as a text that ends with one line feed, and parsing that
text at the path gives the message. -/
def RoundTrips {α : Type} (path : Path) (data : α → Data) (decode : Format → Decoder α) : Prop :=
  ∀ message, ∃ content, renderFile path (data message) = .ok (content ++ "\n") ∧
    content.toList.getLast? ≠ some '\n' ∧
      parseFile decode path (content ++ "\n") = .ok message

lemma Format.ofPath_json {path : Path} {extension : String}
    (hextension : path.fileExtension = some extension) (hjson : extension.toLower = "json") :
    Format.ofPath path = .ok .json := by
  have hword : extension.toList.map Char.toLower = "json".toList := by
    rw [← hjson]
    exact String.toList_map.symm
  have hne : "json".toList ≠ "toml".toList := by decide
  simp only [Format.ofPath, hextension, Option.getD_some, Format.ofExtension?, hword, if_neg hne]
  rfl

/-- Plain data is rendered as its JSON text and a line feed. -/
lemma renderFile_json {path : Path} {data : Data} (hpath : Format.ofPath path = .ok .json)
    (hplain : data.Plain) : renderFile path data = .ok (Json.print data ++ "\n") :=
  bind_eq_ok.mpr ⟨.json, hpath, congrArg Except.ok (if_neg (Json.getLast?_print hplain))⟩

/-- What is plain and decoded from its data makes the round trip through JSON. -/
lemma roundTrips_of_decode {α : Type} {path : Path} {data : α → Data}
    {decode : Format → Decoder α} (hpath : Format.ofPath path = .ok .json)
    (hplain : ∀ message, (data message).Plain)
    (hdecode : ∀ message, decode .json (data message) = some message) :
    RoundTrips path data decode := by
  intro message
  have hlast := Json.getLast?_print (hplain message)
  have hread : Json.read (Json.print (data message) ++ "\n") = some (data message) :=
    Json.read_print (hplain message) (by decide)
  refine ⟨Json.print (data message), renderFile_json hpath (hplain message), hlast,
    bind_eq_ok.mpr ⟨.json, hpath, ?_⟩⟩
  have hfound : Format.json.read (Json.print (data message) ++ "\n") >>= decode .json =
      some message := by
    rw [Format.read, hread, Option.bind_eq_bind, Option.bind_some, hdecode]
  rw [hfound]
  rfl

/-- **Messages are read back.**  A message of any type that is written to a file with the extension
of JSON, in any letter case, is read back from the file. -/
theorem messages_roundTrip {path : Path} {extension : String}
    (hextension : path.fileExtension = some extension) (hjson : extension.toLower = "json") :
    RoundTrips path DirectoryMap.data DirectoryMap.decode ∧
      RoundTrips path ReleaseFile.data ReleaseFile.decode ∧
      RoundTrips path FlagValueFile.data FlagValueFile.decode ∧
      RoundTrips path FlagDeclaration.data FlagDeclaration.decode ∧
      RoundTrips path PartitionReport.data PartitionReport.decode ∧
      RoundTrips path ReleaseReport.data ReleaseReport.decode ∧
      RoundTrips path CombinedReport.data CombinedReport.decode ∧
      RoundTrips path ContributionReports.data ContributionReports.decode := by
  have hpath := Format.ofPath_json hextension hjson
  refine ⟨?_, ?_, ?_, ?_, ?_, ?_, ?_, ?_⟩
  · exact roundTrips_of_decode hpath DirectoryMap.plain_data DirectoryMap.decode_data
  · exact roundTrips_of_decode hpath ReleaseFile.plain_data ReleaseFile.decode_data
  · exact roundTrips_of_decode hpath FlagValueFile.plain_data FlagValueFile.decode_data
  · exact roundTrips_of_decode hpath FlagDeclaration.plain_data FlagDeclaration.decode_data
  · exact roundTrips_of_decode hpath PartitionReport.plain_data PartitionReport.decode_data
  · exact roundTrips_of_decode hpath ReleaseReport.plain_data ReleaseReport.decode_data
  · exact roundTrips_of_decode hpath CombinedReport.plain_data CombinedReport.decode_data
  · exact roundTrips_of_decode hpath ContributionReports.plain_data ContributionReports.decode_data

/-- Values of flags make the round trip through a file whose extension is written in capitals. -/
theorem messages_roundTrip_capitals :
    (Path.ofText "out/FLAG_A.JSON").fileExtension = some "JSON" ∧ "JSON".toLower = "json" ∧
      RoundTrips (Path.ofText "out/FLAG_A.JSON") FlagValueFile.data FlagValueFile.decode := by
  have hextension : (Path.ofText "out/FLAG_A.JSON").fileExtension = some "JSON" := by decide
  have hjson : "JSON".toLower = "json" := by
    have hword : "JSON".toLower.toList = "JSON".toList.map Char.toLower := String.toList_map
    rw [← String.toList_inj, hword]
    decide
  obtain ⟨-, -, hvalues, -⟩ := messages_roundTrip hextension hjson
  exact ⟨hextension, hjson, hvalues⟩

end ReleaseFlags
