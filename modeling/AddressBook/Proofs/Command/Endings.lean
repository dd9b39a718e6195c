import AddressBook.Command.Inquiry
import AddressBook.Proofs.Outcome
import AddressBook.Proofs.Schema.Loading
/-!
# How checks of files end

A file holds a document, or it is spoiled: it cannot be read, it is not UTF-8, or it is not a text of its format. From what
the two files of a check hold follows how the check ends, and which of the files it has read by then. A schema document that
is spoiled or refused decides on its own, so the file of the record is left alone. A file that is spoiled is the user's
fault, whichever it is, and no report is printed; no check ends with the code of an internal error.
-/

namespace AddressBook

open Text (Bytes)
open Check (ReadFile)

/-! ### Inquiries -/

namespace Inquiry

variable {α : Type} {read : ReadFile}

/-- The outcome where the files have these contents. -/
def result (read : ReadFile) : Inquiry α → α
  | done outcome => outcome
  | ask path next => (next (read path)).result read

/-- The files that are read, in order. -/
def consulted (read : ReadFile) : Inquiry α → List String
  | done _ => []
  | ask path next => path :: (next (read path)).consulted read

/-- Reads a file and notes that it did. -/
def noting (read : ReadFile) (path : String) : StateM (List String) (Except IoFault Bytes) := do
  modify (· ++ [path])
  return read path

/-- Who carries an inquiry out and notes what is read, reads the files that are consulted and has the result. -/
theorem run_carryOut_noting (inquiry : Inquiry α) (noted : List String) :
    (inquiry.carryOut (noting read)).run noted = (inquiry.result read, noted ++ inquiry.consulted read) := by
  induction inquiry generalizing noted with
  | done outcome =>
      rw [consulted, List.append_nil]
      rfl
  | ask path next ih =>
      rw [consulted, List.append_cons]
      exact ih (read path) (noted ++ [path])

end Inquiry

/-- The report that is printed says that what was checked is valid. -/
def Ending.SaysValid (ending : Ending) : Prop :=
  ∃ members : Members, ending.report = some (.obj members) ∧ members.get? "valid" = some (.bool true)

/-! ### Files -/

namespace Check

variable {read : ReadFile} {path file schema record : String} {skip : List String} {document : Json}
  {failure : CommandFailure} {ending : Ending} {paths : List String}

/-- The content of a file is a text of a document, in UTF-8 and in the format that the extension tells. -/
inductive Holds (read : ReadFile) (path : String) (document : Json) : Prop
  | yaml {content : Bytes} {text : List Char} (hread : read path = .ok content)
      (htext : Text.Utf8.decode? content = some text) (hyaml : isYaml path = true)
      (hparse : Yaml.parse? text = some document)
  | json {content : Bytes} {text : List Char} (hread : read path = .ok content)
      (htext : Text.Utf8.decode? content = some text) (hjson : isYaml path = false)
      (hparse : Json.parse? text = some document)

/-- A file holds no document, and the failure says why. -/
inductive Spoiled (read : ReadFile) (path : String) : CommandFailure → Prop
  | unreadable {fault : IoFault} (hread : read path = .error fault) : Spoiled read path (.io fault.message)
  | notUtf8 {content : Bytes} (hread : read path = .ok content) (htext : Text.Utf8.decode? content = none) :
      Spoiled read path (.io "stream did not contain valid UTF-8")
  | notYaml {content : Bytes} {text : List Char} (hread : read path = .ok content)
      (htext : Text.Utf8.decode? content = some text) (hyaml : isYaml path = true) (hparse : Yaml.parse? text = none) :
      Spoiled read path .yaml
  | notJson {content : Bytes} {text : List Char} (hread : read path = .ok content)
      (htext : Text.Utf8.decode? content = some text) (hjson : isYaml path = false) (hparse : Json.parse? text = none) :
      Spoiled read path .json

/-- A spoiled file is the user's fault, never that of a store. -/
theorem Spoiled.ofOutcome (hspoiled : Spoiled read path failure) : Ending.ofOutcome (.error failure) = ⟨3, none⟩ := by
  cases hspoiled <;> rfl

theorem Holds.readDocument (hholds : Holds read path document) : readDocument read path = .ok document := by
  cases hholds with
  | yaml hread htext hyaml hparse | json hread htext hyaml hparse =>
      simp [Check.readDocument, readText, parse, hread, htext, hyaml, hparse, bind, Except.bind]

theorem Spoiled.readDocument (hspoiled : Spoiled read path failure) : readDocument read path = .error failure := by
  cases hspoiled with
  | unreadable hread => simp [Check.readDocument, readText, hread, bind, Except.bind]
  | notUtf8 hread htext => simp [Check.readDocument, readText, hread, htext, bind, Except.bind]
  | notYaml hread htext hyaml hparse | notJson hread htext hyaml hparse =>
      simp [Check.readDocument, readText, parse, hread, htext, hyaml, hparse, bind, Except.bind]

theorem holds_or_spoiled (read : ReadFile) (path : String) :
    (∃ document, Holds read path document) ∨ ∃ failure, Spoiled read path failure := by
  cases hread : read path with
  | error fault => exact .inr ⟨_, .unreadable hread⟩
  | ok content =>
      cases htext : Text.Utf8.decode? content with
      | none => exact .inr ⟨_, .notUtf8 hread htext⟩
      | some text =>
          cases hformat : isYaml path with
          | true =>
              cases hparse : Yaml.parse? text with
              | none => exact .inr ⟨_, .notYaml hread htext hformat hparse⟩
              | some document => exact .inl ⟨_, .yaml hread htext hformat hparse⟩
          | false =>
              cases hparse : Json.parse? text with
              | none => exact .inr ⟨_, .notJson hread htext hformat hparse⟩
              | some document => exact .inl ⟨_, .json hread htext hformat hparse⟩

/-! ### Endings -/

/-- The report on what is refused. -/
def refusal (error : Json) : Json := .obj [("valid", .bool false), ("error", error)]

/-- How the check of a schema document ends, and which files it has read. -/
inductive SchemaEnds (read : ReadFile) (file : String) : Ending → List String → Prop
  | spoiled {failure : CommandFailure} (hschema : Spoiled read file failure) : SchemaEnds read file ⟨3, none⟩ [file]
  | refused {document : Json} {fault : DocumentFault} (hschema : Holds read file document)
      (hrefused : Document.validate document = .error fault) :
      SchemaEnds read file ⟨1, some (refusal fault.report.toJson)⟩ [file]
  | accepted {members : Members} (hschema : Holds read file (.obj members))
      (hvalid : Document.validate (.obj members) = .ok ()) :
      SchemaEnds read file ⟨0, some (.obj [("valid", .bool true), ("fields", .int members.length)])⟩ [file]

/-- How the check of a record ends, and which files it has read: that of the record only if the schema is accepted. -/
inductive RecordEnds (read : ReadFile) (schema record : String) (skip : List String) : Ending → List String → Prop
  | schemaSpoiled {failure : CommandFailure} (hschema : Spoiled read schema failure) :
      RecordEnds read schema record skip ⟨3, none⟩ [schema]
  | schemaRefused {document : Json} {fault : DocumentFault} (hschema : Holds read schema document)
      (hrefused : Document.validate document = .error fault) :
      RecordEnds read schema record skip ⟨3, some (refusal fault.report.toJson)⟩ [schema]
  | recordSpoiled {document : Json} {failure : CommandFailure} (hschema : Holds read schema document)
      (hvalid : Document.validate document = .ok ()) (hrecord : Spoiled read record failure) :
      RecordEnds read schema record skip ⟨3, none⟩ [schema, record]
  | notObject {document value : Json} (hschema : Holds read schema document)
      (hvalid : Document.validate document = .ok ()) (hrecord : Holds read record value)
      (hvalue : ∀ members, value ≠ .obj members) :
      RecordEnds read schema record skip ⟨3, some (refusal (.str "record must be an object"))⟩ [schema, record]
  | violated {document : Json} {loaded : Schema} {members : Members} {violation : Violation}
      (hschema : Holds read schema document) (hvalid : Document.validate document = .ok ())
      (hloads : Schema.ofDocument document = .ok loaded) (hrecord : Holds read record (.obj members))
      (hcheck : loaded.check members skip = .error violation) :
      RecordEnds read schema record skip ⟨1, some (refusal violation.toJson)⟩ [schema, record]
  | fits {document : Json} {loaded : Schema} {members : Members} (hschema : Holds read schema document)
      (hvalid : Document.validate document = .ok ()) (hloads : Schema.ofDocument document = .ok loaded)
      (hrecord : Holds read record (.obj members)) (hcheck : loaded.check members skip = .ok ()) :
      RecordEnds read schema record skip ⟨0, some (.obj [("valid", .bool true)])⟩ [schema, record]

theorem not_saysValid_none (code : Nat) : ¬ Ending.SaysValid ⟨code, none⟩ := by
  rintro ⟨members, hreport, -⟩
  cases hreport

theorem not_saysValid_refusal (code : Nat) (error : Json) : ¬ Ending.SaysValid ⟨code, some (refusal error)⟩ := by
  rintro ⟨members, hreport, hvalid⟩
  obtain rfl := Json.obj.inj (Option.some.inj hreport)
  cases hvalid

theorem SchemaEnds.code (hends : SchemaEnds read file ending paths) :
    ending.code ≠ 10 ∧ (ending.SaysValid ↔ ending.code = 0) := by
  cases hends with
  | spoiled => exact ⟨nofun, iff_of_false (not_saysValid_none _) nofun⟩
  | refused => exact ⟨nofun, iff_of_false (not_saysValid_refusal _ _) nofun⟩
  | accepted => exact ⟨nofun, iff_of_true ⟨_, rfl, rfl⟩ rfl⟩

theorem RecordEnds.code (hends : RecordEnds read schema record skip ending paths) :
    ending.code ≠ 10 ∧ (ending.SaysValid ↔ ending.code = 0) := by
  cases hends with
  | schemaSpoiled | recordSpoiled => exact ⟨nofun, iff_of_false (not_saysValid_none _) nofun⟩
  | schemaRefused | notObject | violated => exact ⟨nofun, iff_of_false (not_saysValid_refusal _ _) nofun⟩
  | fits => exact ⟨nofun, iff_of_true ⟨_, rfl, rfl⟩ rfl⟩

/-! ### Every set of files is one of the cases -/

theorem exists_schemaEnds (read : ReadFile) (file : String) : ∃ ending paths, SchemaEnds read file ending paths := by
  rcases holds_or_spoiled read file with ⟨document, hschema⟩ | ⟨failure, hschema⟩
  · cases hvalid : Document.validate document with
    | error fault => exact ⟨_, _, .refused hschema hvalid⟩
    | ok =>
        obtain ⟨all, schema, hdescribes⟩ := Document.exists_describes hvalid
        obtain rfl := hdescribes.members
        exact ⟨_, _, .accepted hschema hvalid⟩
  · exact ⟨_, _, .spoiled hschema⟩

theorem exists_recordEnds (read : ReadFile) (schema record : String) (skip : List String) :
    ∃ ending paths, RecordEnds read schema record skip ending paths := by
  rcases holds_or_spoiled read schema with ⟨document, hschema⟩ | ⟨failure, hschema⟩
  · cases hvalid : Document.validate document with
    | error fault => exact ⟨_, _, .schemaRefused hschema hvalid⟩
    | ok =>
        obtain ⟨all, loaded, hdescribes⟩ := Document.exists_describes hvalid
        rcases holds_or_spoiled read record with ⟨value, hrecord⟩ | ⟨failure, hrecord⟩
        · by_cases hvalue : ∃ members, value = .obj members
          · obtain ⟨members, rfl⟩ := hvalue
            cases hcheck : loaded.check members skip with
            | error violation => exact ⟨_, _, .violated hschema hvalid hdescribes.loads hrecord hcheck⟩
            | ok => exact ⟨_, _, .fits hschema hvalid hdescribes.loads hrecord hcheck⟩
          · exact ⟨_, _, .notObject hschema hvalid hrecord fun members heq => hvalue ⟨members, heq⟩⟩
        · exact ⟨_, _, .recordSpoiled hschema hvalid hrecord⟩
  · exact ⟨_, _, .schemaSpoiled hschema⟩

/-! ### Runs -/

/-- How an inquiry ends where the files have these contents, and which of them it has read. -/
def runWith (read : ReadFile) (inquiry : Inquiry (Except CommandFailure Report)) : Ending × List String :=
  let (outcome, paths) := (inquiry.carryOut (Inquiry.noting read)).run []
  (.ofOutcome outcome, paths)

theorem runWith_eq (read : ReadFile) (inquiry : Inquiry (Except CommandFailure Report)) :
    runWith read inquiry = (.ofOutcome (inquiry.result read), inquiry.consulted read) := by
  rw [runWith, Inquiry.run_carryOut_noting]
  rfl

@[simp] theorem result_askDocument {α : Type} (next : Except CommandFailure Json → Inquiry α) :
    (askDocument path next).result read = (next (Check.readDocument read path)).result read := rfl

@[simp] theorem consulted_askDocument {α : Type} (next : Except CommandFailure Json → Inquiry α) :
    (askDocument path next).consulted read = path :: (next (Check.readDocument read path)).consulted read := rfl

theorem result_schemaInquiry : (schemaInquiry file).result read = schemaFile read file := by
  rw [schemaInquiry, result_askDocument, schemaFile]
  cases Check.readDocument read file <;> rfl

theorem result_recordInquiry : (recordInquiry schema record skip).result read = recordFile read schema record skip := by
  rw [recordInquiry, result_askDocument, recordFile]
  cases Check.readDocument read schema with
  | error failure => rfl
  | ok document =>
      simp only [bind, Except.bind]
      cases Schema.ofNewDocument document with
      | error fault => rfl
      | ok loaded =>
          dsimp only
          rw [result_askDocument]
          cases Check.readDocument read record <;> rfl

theorem SchemaEnds.runWith_eq (hends : SchemaEnds read file ending paths) :
    runWith read (schemaInquiry file) = (ending, paths) := by
  rw [Check.runWith_eq, schemaInquiry, result_askDocument, consulted_askDocument]
  cases hends with
  | spoiled hschema =>
      rw [hschema.readDocument]
      exact congrArg (·, [file]) hschema.ofOutcome
  | refused hschema hrefused =>
      rw [hschema.readDocument]
      simp only [Inquiry.result, Inquiry.consulted, reportSchema, hrefused]
      rfl
  | accepted hschema hvalid =>
      rw [hschema.readDocument]
      simp only [Inquiry.result, Inquiry.consulted, reportSchema, hvalid]
      rfl

theorem runWith_of_loaded (hschema : Holds read schema document) (hvalid : Document.validate document = .ok ())
    {loaded : Schema} (hloads : Schema.ofDocument document = .ok loaded) (record : String) (skip : List String) :
    runWith read (recordInquiry schema record skip) =
      (.ofOutcome ((Check.readDocument read record).map (reportRecord loaded skip)), [schema, record]) := by
  have hnew : Schema.ofNewDocument document = .ok loaded := Except.then_eq_ok_iff.2 ⟨hvalid, hloads⟩
  rw [runWith_eq, recordInquiry, result_askDocument, consulted_askDocument, hschema.readDocument]
  simp only [hnew, result_askDocument, consulted_askDocument]
  cases Check.readDocument read record <;> rfl

theorem RecordEnds.runWith_eq (hends : RecordEnds read schema record skip ending paths) :
    runWith read (recordInquiry schema record skip) = (ending, paths) := by
  cases hends with
  | schemaSpoiled hschema =>
      rw [Check.runWith_eq, recordInquiry, result_askDocument, consulted_askDocument, hschema.readDocument]
      exact congrArg (·, [schema]) hschema.ofOutcome
  | schemaRefused hschema hrefused =>
      rw [Check.runWith_eq, recordInquiry, result_askDocument, consulted_askDocument, hschema.readDocument]
      simp only [Document.ofNewDocument_eq_error_iff.2 hrefused]
      rfl
  | recordSpoiled hschema hvalid hrecord =>
      obtain ⟨all, loaded, hdescribes⟩ := Document.exists_describes hvalid
      rw [runWith_of_loaded hschema hvalid hdescribes.loads, hrecord.readDocument]
      exact congrArg (·, [schema, record]) hrecord.ofOutcome
  | @notObject _ value hschema hvalid hrecord hvalue =>
      obtain ⟨all, loaded, hdescribes⟩ := Document.exists_describes hvalid
      rw [runWith_of_loaded hschema hvalid hdescribes.loads, hrecord.readDocument]
      cases value with
      | obj members => exact absurd rfl (hvalue members)
      | _ => rfl
  | violated hschema hvalid hloads hrecord hcheck =>
      rw [runWith_of_loaded hschema hvalid hloads, hrecord.readDocument]
      simp only [Except.map, reportRecord, hcheck]
      rfl
  | fits hschema hvalid hloads hrecord hcheck =>
      rw [runWith_of_loaded hschema hvalid hloads, hrecord.readDocument]
      simp only [Except.map, reportRecord, hcheck]
      rfl

/-- A check ends in the one way that the files demand, and says that something is valid exactly if it succeeds. -/
theorem checks_end (read : ReadFile) :
    (∀ file ending paths, runWith read (schemaInquiry file) = (ending, paths) ↔ SchemaEnds read file ending paths) ∧
    (∀ schema record skip ending paths,
      runWith read (recordInquiry schema record skip) = (ending, paths) ↔
        RecordEnds read schema record skip ending paths) ∧
    (∀ file, (runWith read (schemaInquiry file)).1 = .ofOutcome (schemaFile read file) ∧
      (runWith read (schemaInquiry file)).1.code ≠ 10 ∧
      ((runWith read (schemaInquiry file)).1.SaysValid ↔ (runWith read (schemaInquiry file)).1.code = 0)) ∧
    (∀ schema record skip,
      (runWith read (recordInquiry schema record skip)).1 = .ofOutcome (recordFile read schema record skip) ∧
      (runWith read (recordInquiry schema record skip)).1.code ≠ 10 ∧
      ((runWith read (recordInquiry schema record skip)).1.SaysValid ↔
        (runWith read (recordInquiry schema record skip)).1.code = 0)) := by
  refine ⟨fun file ending paths => ⟨fun hrun => ?_, SchemaEnds.runWith_eq⟩,
    fun schema record skip ending paths => ⟨fun hrun => ?_, RecordEnds.runWith_eq⟩,
    fun file => ⟨?_, ?_⟩, fun schema record skip => ⟨?_, ?_⟩⟩
  · obtain ⟨own, others, hends⟩ := exists_schemaEnds read file
    obtain ⟨rfl, rfl⟩ := Prod.mk.inj (hends.runWith_eq.symm.trans hrun)
    exact hends
  · obtain ⟨own, others, hends⟩ := exists_recordEnds read schema record skip
    obtain ⟨rfl, rfl⟩ := Prod.mk.inj (hends.runWith_eq.symm.trans hrun)
    exact hends
  · rw [runWith_eq, result_schemaInquiry]
  · obtain ⟨ending, paths, hends⟩ := exists_schemaEnds read file
    rw [hends.runWith_eq]
    exact hends.code
  · rw [runWith_eq, result_recordInquiry]
  · obtain ⟨ending, paths, hends⟩ := exists_recordEnds read schema record skip
    rw [hends.runWith_eq]
    exact hends.code

/-- The only file there is holds `[]`. -/
def listedSchema : ReadFile := fun path => if path = "schema.json" then .ok [91, 93] else .error .notFound

theorem checks_end_listedSchema :
    runWith listedSchema (recordInquiry "schema.json" "record.json" [idField]) =
      (⟨3, some (refusal DocumentFault.notMapping.report.toJson)⟩, ["schema.json"]) ∧
    runWith listedSchema (schemaInquiry "record.json") = (⟨3, none⟩, ["record.json"]) := by
  have hholds : Holds listedSchema "schema.json" (.arr []) :=
    @Holds.json _ _ _ _ ['[', ']'] rfl (by decide +kernel) (by decide +kernel) (by decide +kernel)
  obtain ⟨hschema, hrecord, -, -⟩ := checks_end listedSchema
  exact ⟨(hrecord _ _ _ _ _).2 (.schemaRefused hholds rfl), (hschema _ _ _).2 (.spoiled (.unreadable rfl))⟩

end Check

end AddressBook
