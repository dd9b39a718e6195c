import AddressBook.Command.Check
import AddressBook.Proofs.Files.Beside
import AddressBook.Proofs.Schema.Checking
import AddressBook.Proofs.Service.Failure
import AddressBook.Proofs.Service.Schema
/-!
# Checks with and without a service

A document that is sent to a service is validated, saved, read back and loaded under the policy of the settings; a record
is taken out of a body without its id. The checks of files do none of that. They agree nevertheless: saving changes no more
of a document than its doubles, a valid document leaves nothing to the policy, and the id is skipped. Only where a folder
stands in the place of the document or of its draft, the service can not save what the checks accept.
-/

namespace AddressBook

open Http (Body MediaType Request Response)
open Json (reread)

/-! ### What a request carries -/

/-- The body of a request is a JSON text of a value, announced as such and within a limit. -/
structure Carries (limit : Nat) (request : Request) (value : Json) : Prop where
  contentType : (MediaType.ofHeader? request.contentType).any MediaType.isJson = true
  length : request.body.length ≤ limit
  text : (Text.Utf8.decode? request.body).bind Json.parse? = some value

section Carries

variable {limit : Nat} {request : Request} {value : Json}

theorem Carries.json (hcarries : Carries limit request value) : Input.json limit request = .ok value := by
  obtain ⟨cs, hdecode, hparse⟩ := Option.bind_eq_some_iff.1 hcarries.text
  obtain ⟨rest, hstart⟩ := Json.exists_parseStart? hparse
  rw [Input.json, hcarries.contentType, if_neg (by decide), if_neg (Nat.not_lt.2 hcarries.length),
    Text.Utf8.decodeStart_of_decode? hdecode, hstart]

theorem Carries.infos {record : Members} (hcarries : Carries limit request (.obj record))
    (hother : ∃ name ∈ Assoc.keys record, name ≠ idField) :
    Input.infos limit request = .ok (Assoc.swapErase record idField) := by
  have hsome : (Assoc.swapErase record idField).isEmpty = false := by
    obtain ⟨name, hname, hne⟩ := hother
    obtain ⟨member, hmember, rfl⟩ := List.mem_map.1 hname
    rw [List.isEmpty_eq_false_iff]
    exact List.ne_nil_of_mem (Assoc.mem_swapErase_of_ne hmember hne)
  rw [Input.infos, hcarries.json]
  change Input.infosOf (.obj record) = _
  rw [Input.infosOf, hsome, if_neg (by decide)]

theorem Carries.readDocument (hcarries : Carries limit request value) {read : Check.ReadFile} {path : String}
    (hread : read path = .ok request.body) (hjson : Check.isYaml path = false) :
    Check.readDocument read path = .ok value := by
  obtain ⟨cs, hdecode, hparse⟩ := Option.bind_eq_some_iff.1 hcarries.text
  have htext : Check.readText read path = .ok cs := by
    rw [Check.readText, hread]
    dsimp only
    rw [hdecode]
    rfl
  rw [Check.readDocument, htext]
  change Check.parse path cs = _
  rw [Check.parse, hjson, if_neg (by decide), hparse]
  rfl

end Carries

/-! ### Saving -/

namespace Service

variable {service : Service} {document : Json} {request : Request}

/-- No folder stands where the document and its draft are kept. -/
structure CanSave (service : Service) : Prop where
  document : service.files.CanWrite service.settings.schemaPath
  draft : service.files.CanWrite service.documents.draftPath

/-- A service that has been prepared and has a document can save another one if it can write the draft. -/
theorem canSave_of_prepared (hprepared : service.Prepared) (hdocument : service.currentDocument = .ok document)
    (hdraft : service.files.CanWrite service.documents.draftPath) : service.CanSave := by
  obtain ⟨place, hlocate⟩ := (ready_of_prepared hprepared).document
  exact ⟨⟨place, hlocate, node?_ne_folder_of_currentDocument hdocument hlocate⟩, hdraft⟩

theorem canSave_of_save {saved : FileTree} (hsaved : service.documents.save service.files document = (saved, .ok ())) :
    service.CanSave := by
  have hsaves := service.documents.saves_save service.files document
  rw [hsaved] at hsaves
  cases hsaves with
  | saved hwrite hcommit =>
      have hsame := FileTree.sameFolders_of_write hwrite
      obtain ⟨draft, hdraft, hnode, -⟩ := FileTree.write_eq_ok_iff.1 hwrite
      obtain ⟨-, -, place, -, -, hplace, hfree, -⟩ := FileTree.rename_eq_ok_iff.1 hcommit
      exact ⟨hsame.canWrite_iff.1 ⟨place, hplace, hfree⟩, draft, hdraft, hnode⟩

theorem validDocument_of_carries (hcarries : Carries service.settings.maxUploadBytes request document) :
    service.validDocument request =
      match Document.validate document with
      | .ok () => .ok document
      | .error fault => .error (.schema fault.report) := by
  rw [validDocument, hcarries.json]
  rfl

/-- A valid document is saved, and is read back with the doubles that its text is read as. -/
theorem exists_putDocument (hsave : service.CanSave) (hcarries : Carries service.settings.maxUploadBytes request document)
    (hvalid : Document.validate document = .ok ()) :
    ∃ saved : Service, service.putDocument request = (saved, .ok document) ∧ saved.settings = service.settings ∧
      saved.currentDocument = .ok (document.withFloats reread) := by
  obtain ⟨⟨place, hlocate, hplace⟩, draft, hdraft, hnode⟩ := hsave
  obtain ⟨hwell, hdepth⟩ := Input.wellFormed_and_depth_le_of_json hcarries.json
  obtain ⟨files, hfiles, hload⟩ :=
    @DocumentStore.exists_saved service.documents _ _ _ _ hlocate hplace hdraft hnode hwell hdepth
  refine ⟨{ service with files }, ?_, rfl, Except.mapError_eq_ok_iff.2 hload⟩
  rw [putDocument, validDocument_of_carries hcarries, hvalid]
  dsimp only
  rw [hfiles]

theorem exists_fault_of_not_canSave (hsave : ¬ service.CanSave)
    (hcarries : Carries service.settings.maxUploadBytes request document) (hvalid : Document.validate document = .ok ()) :
    ∃ fault, (service.putDocument request).2 = .error (Refusal.ofStore (.ofIo fault)) := by
  rw [putDocument, validDocument_of_carries hcarries, hvalid]
  have hsaves := service.documents.saves_save service.files document
  generalize houtcome : service.documents.save service.files document = outcome at hsaves
  dsimp only
  rw [houtcome]
  cases hsaves with
  | failed fault => exact ⟨fault, rfl⟩
  | @drafted _ fault => exact ⟨fault, rfl⟩
  | saved => exact absurd (canSave_of_save houtcome) hsave

theorem status_ofStore_ofIo (fault : IoFault) : (Refusal.ofStore (.ofIo fault)).status = 500 := rfl

theorem currentSchema_of_withFloats {f : Number.Binary64 → Number.Binary64} {schema : Schema}
    (hdocument : service.currentDocument = .ok (document.withFloats f)) (hloads : Schema.ofDocument document = .ok schema) :
    service.currentSchema = .ok { schema.withFloats f with policy := service.settings.untypedLists } := by
  refine Except.bind_eq_ok_iff.2 ⟨_, hdocument, ?_⟩
  rw [schemaOf, Schema.ofDocument_withFloats, hloads]
  rfl

/-- The schema of a service judges a record without its id as the schema of the document judges it with its id. -/
theorem check_swapErase {f : Number.Binary64 → Number.Binary64} {schema : Schema} {record : Members}
    (hitems : schema.NamesItems) (hnodup : (Assoc.keys record).Nodup) (policy : UntypedLists) :
    { schema.withFloats f with policy }.check (Assoc.swapErase record idField) [idField] =
      schema.check record [idField] := by
  change ({ schema with policy }.withFloats f).check (Assoc.swapErase record idField) [idField] = _
  rw [Schema.check_withFloats_schema, Schema.check_policy hitems]
  refine Schema.check_congr fun name hname => ?_
  exact Assoc.get?_swapErase_of_ne hnodup (List.ne_of_not_mem_cons hname)

theorem addContact_eq {occasion : Occasion} {infos : Members} {schema : Schema}
    (hinfos : Input.infos service.settings.maxUploadBytes request = .ok infos) (hschema : service.currentSchema = .ok schema) :
    (service.addContact occasion request).2 =
      match schema.check infos [idField] with
      | .ok () => .ok (service.records.create infos occasion.now).2.contact
      | .error violation => .error (.record violation) := by
  have hnew : service.newInfos request = (checkInfos schema infos).map fun _ => infos := by
    rw [newInfos, hinfos, hschema]
    rfl
  rw [addContact, hnew, checkInfos]
  cases schema.check infos [idField] with
  | ok => rfl
  | error violation => rfl

/-! ### Reports -/

section Files

variable {read : Check.ReadFile} {path : String} {fault : DocumentFault}

theorem schemaFile_eq (hread : Check.readDocument read path = .ok document) :
    Check.schemaFile read path = .ok (Check.reportSchema document) := by
  rw [Check.schemaFile, hread]
  rfl

theorem recordFile_of_refused (hread : Check.readDocument read path = .ok document)
    (hrefused : Document.validate document = .error fault) (record : String) (skip : List String) :
    Check.recordFile read path record skip = .ok (Check.refused .invalidInput fault.report.toJson) := by
  refine Except.bind_eq_ok_iff.2 ⟨document, hread, ?_⟩
  rw [Document.ofNewDocument_eq_error_iff.2 hrefused]
  rfl

theorem recordFile_of_loaded (hread : Check.readDocument read path = .ok document) {schema : Schema}
    (hloads : Schema.ofNewDocument document = .ok schema) {recordPath : String} {value : Json}
    (hrecord : Check.readDocument read recordPath = .ok value) (skip : List String) :
    Check.recordFile read path recordPath skip = .ok (Check.reportRecord schema skip value) := by
  refine Except.bind_eq_ok_iff.2 ⟨document, hread, ?_⟩
  rw [hloads]
  exact Except.bind_eq_ok_iff.2 ⟨value, hrecord, rfl⟩

end Files

/-- A service that can save a document agrees with the checks of files; one that can not refuses valid documents too. -/
theorem checks_agree_with_service (service : Service) {document : Json} {record : Members}
    (hother : ∃ name ∈ Assoc.keys record, name ≠ idField) {put post : Request}
    (hput : put.method = .put) (hconfig : Route.ofPath? (Http.Target.path put.target) = some .config)
    (hdocument : Carries service.settings.maxUploadBytes put document)
    (hpost : post.method = .post) (hcontacts : Route.ofPath? (Http.Target.path post.target) = some .contacts)
    (hrecord : Carries service.settings.maxUploadBytes post (.obj record)) {read : Check.ReadFile} {schemaPath recordPath : String}
    (hschemaFile : Check.readDocument read schemaPath = .ok document)
    (hrecordFile : Check.readDocument read recordPath = .ok (.obj record)) (occasion later : Occasion) :
    ∃ schemaReport recordReport,
      Check.schemaFile read schemaPath = .ok schemaReport ∧
      Check.recordFile read schemaPath recordPath [idField] = .ok recordReport ∧
      ((service.answer occasion put).2.status = 200 ↔ schemaReport.exit.toNat = 0 ∧ service.CanSave) ∧
      ((service.answer occasion put).2.status = 500 ↔ schemaReport.exit.toNat = 0 ∧ ¬ service.CanSave) ∧
      ((service.answer occasion put).2.status = 400 ↔ schemaReport.exit.toNat = 1 ∧ recordReport.exit.toNat = 3) ∧
      (service.answer occasion put).2.status ∈ [200, 400, 500] ∧
      ((service.answer occasion put).2.status = 400 → ∃ rejection : Rejection,
        (service.answer occasion put).2.body = .json (Refusal.schema rejection).toJson ∧
        schemaReport.content = .obj [("valid", .bool false), ("error", rejection.toJson)] ∧
        recordReport.content = .obj [("valid", .bool false), ("error", rejection.toJson)]) ∧
      ((service.answer occasion put).2.status = 200 →
        (((service.answer occasion put).1.answer later post).2.status = 200 ↔ recordReport.exit.toNat = 0) ∧
        (((service.answer occasion put).1.answer later post).2.status ≠ 200 → ∃ violation : Violation,
          ((service.answer occasion put).1.answer later post).2 = { status := 400, body := .json violation.toJson } ∧
          recordReport.exit.toNat = 1 ∧
          recordReport.content = .obj [("valid", .bool false), ("error", violation.toJson)])) := by
  rw [answer_of_putConfig hput hconfig, answer_of_postContact hpost hcontacts, schemaFile_eq hschemaFile]
  cases hresult : Document.validate document with
  | error fault =>
      have hrefused : service.putDocument put = (service, .error (.schema fault.report)) := by
        rw [putDocument, validDocument_of_carries hdocument, hresult]
      have hreport : Check.reportSchema document = Check.refused .validationFailed fault.report.toJson := by
        rw [Check.reportSchema, hresult]
      have hstatus : (respond (.error (.schema fault.report))).status = 400 := rfl
      have hschemaExit : (Check.refused .validationFailed fault.report.toJson).exit.toNat = 1 := rfl
      have hrecordExit : (Check.refused .invalidInput fault.report.toJson).exit.toNat = 3 := rfl
      rw [recordFile_of_refused hschemaFile hresult, hrefused, hreport]
      refine ⟨_, _, rfl, rfl, ?_, ?_, ?_, ?_, fun _ => ⟨fault.report, rfl, rfl, rfl⟩, ?_⟩ <;>
        simp [hstatus, hschemaExit, hrecordExit]
  | ok =>
      obtain ⟨all, schema, hdescribes⟩ := Document.exists_describes hresult
      have hreport : Check.reportSchema document = Check.accepted [("fields", .int (Check.memberCount document))] := by
        rw [Check.reportSchema, hresult]
      have hloads := recordFile_of_loaded hschemaFile (hdescribes.ofNewDocument hresult) hrecordFile [idField]
      rw [hloads, hreport]
      have hschemaExit : (Check.accepted [("fields", .int (Check.memberCount document))]).exit.toNat = 0 := rfl
      by_cases hsave : service.CanSave
      case neg =>
        obtain ⟨fault, hrefused⟩ := exists_fault_of_not_canSave hsave hdocument hresult
        have hstatus : (respond (service.putDocument put).2).status = 500 := by
          rw [hrefused]
          exact status_ofStore_ofIo fault
        refine ⟨_, _, rfl, rfl, ?_, ?_, ?_, ?_, ?_, ?_⟩ <;> simp [hstatus, hschemaExit, hsave]
      obtain ⟨saved, hsaved, hsettings, hcurrent⟩ := exists_putDocument hsave hdocument hresult
      have hschema := currentSchema_of_withFloats hcurrent hdescribes.loads
      have hinfos : Input.infos saved.settings.maxUploadBytes post = .ok (Assoc.swapErase record idField) := by
        rw [hsettings]
        exact hrecord.infos hother
      have hnodup : (Assoc.keys record).Nodup := by
        cases (Input.wellFormed_and_depth_le_of_json hrecord.json).1 with
        | obj hnodup _ => exact hnodup
      rw [hsaved, addContact_eq hinfos hschema,
        check_swapErase (Schema.namesItems_of_usable (.inr hresult) hdescribes.loads) hnodup, Check.reportRecord]
      have hstatus : (respond (.ok document)).status = 200 := rfl
      refine ⟨_, _, rfl, rfl, ?_, ?_, ?_, ?_, ?_, fun _ => ?posted⟩
      case posted =>
        cases schema.check record [idField] with
        | ok => exact ⟨⟨fun _ => rfl, fun _ => rfl⟩, fun hrefused => absurd rfl hrefused⟩
        | error violation => exact ⟨⟨nofun, nofun⟩, fun _ => ⟨violation, rfl, rfl, rfl⟩⟩
      all_goals simp [hstatus, hschemaExit, hsave]

def ageDocument : Turn :=
  sending .put "/config"
    "\x7b\"id\":\x7b\"type\":\"str\",\"primary_key\":true,\"required\":true\x7d,\"age\":\x7b\"type\":\"integer\"\x7d\x7d".toList

/-- The id is no text, which no check minds, and the age is no number. -/
def ageRecord : Turn := sending .post "/contact" "\x7b\"id\":7,\"age\":\"x\"\x7d".toList

def ageFiles : Check.ReadFile := fun path =>
  if path = "schema.json" then .ok ageDocument.request.body
  else if path = "record.json" then .ok ageRecord.request.body
  else .error .notFound

theorem checks_agree_with_service_age :
    ∃ recordReport, Check.recordFile ageFiles "schema.json" "record.json" [idField] = .ok recordReport ∧
      recordReport.exit.toNat = 1 ∧ ∃ violation : Violation,
      recordReport.content = .obj [("valid", .bool false), ("error", violation.toJson)] ∧
      ((inEmptyFolder.next ageDocument).answer ageRecord.occasion ageRecord.request).2 =
        { status := 400, body := .json violation.toJson } := by
  have hsave : inEmptyFolder.CanSave := canSave_of_prepared prepared_inEmptyFolder rfl ⟨_, rfl, nofun⟩
  have hdocument : Carries inEmptyFolder.settings.maxUploadBytes ageDocument.request (.obj [
      ("id", .obj [("type", .str "str"), ("primary_key", .bool true), ("required", .bool true)]),
      ("age", .obj [("type", .str "integer")])]) := ⟨rfl, by decide +kernel, by decide +kernel⟩
  have hrecord : Carries inEmptyFolder.settings.maxUploadBytes ageRecord.request
      (.obj [("id", .int 7), ("age", .str "x")]) := ⟨rfl, by decide +kernel, by decide +kernel⟩
  have hschemaFile := @Carries.readDocument _ _ _ hdocument ageFiles "schema.json" rfl rfl
  have hrecordFile := @Carries.readDocument _ _ _ hrecord ageFiles "record.json" rfl rfl
  obtain ⟨schemaReport, recordReport, hschemaReport, hrecordReport, haccepted, -, -, -, -, hcheck⟩ :=
    checks_agree_with_service inEmptyFolder ⟨"age", by decide, by decide⟩ rfl rfl hdocument rfl rfl hrecord
      hschemaFile hrecordFile ageDocument.occasion ageRecord.occasion
  have hschemaExit : schemaReport.exit.toNat = 0 := by
    rw [schemaFile_eq hschemaFile] at hschemaReport
    rw [← Except.ok.inj hschemaReport]
    rfl
  have hrecordExit : recordReport.exit.toNat = 1 := by
    rw [recordFile_of_loaded hschemaFile rfl hrecordFile] at hrecordReport
    rw [← Except.ok.inj hrecordReport]
    rfl
  obtain ⟨hcreated, hviolation⟩ := hcheck (haccepted.2 ⟨hschemaExit, hsave⟩)
  obtain ⟨violation, hanswer, -, hcontent⟩ := hviolation fun hstatus => by
    rw [hcreated.1 hstatus] at hrecordExit
    nomatch hrecordExit
  exact ⟨recordReport, hrecordReport, hrecordExit, violation, hcontent, hanswer⟩

/-- A service whose uploads have the folder that the draft of its document would be written to. -/
def uploadsAtDraft : Service where
  settings := { uploadDir := "config.json.tmp" }
  files := {
    nodes := [((1, ["config.json"]), .file []), ((1, ["config.json.tmp"]), .folder), ((1, ["contacts.db"]), .folder),
      ((2, ["contacts.db", "blobs"]), .folder)] }

def keyFiles : Check.ReadFile := fun path => if path = "schema.json" then .ok keyDocument.request.body else .error .notFound

theorem accepted_document_not_saved : uploadsAtDraft.Prepared ∧
    (∃ report, Check.schemaFile keyFiles "schema.json" = .ok report ∧ report.exit.toNat = 0) ∧
    (uploadsAtDraft.answer keyDocument.occasion keyDocument.request).2.status = 500 := by
  refine ⟨⟨{}, rfl⟩, ⟨Check.accepted [("fields", .int 1)], ?_, rfl⟩, by decide +kernel⟩
  have hdocument : Carries inEmptyFolder.settings.maxUploadBytes keyDocument.request (.obj [
      ("id", .obj [("type", .str "str"), ("primary_key", .bool true), ("required", .bool true)])]) :=
    ⟨rfl, by decide +kernel, by decide +kernel⟩
  rw [schemaFile_eq (@Carries.readDocument _ _ _ hdocument keyFiles "schema.json" rfl rfl)]
  rfl

end Service

end AddressBook
