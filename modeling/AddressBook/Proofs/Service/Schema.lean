import AddressBook.Proofs.Document.Stored
import AddressBook.Proofs.Service.Folders
import AddressBook.Proofs.Service.Input
/-!
# The schema is always there

The document of a service that started without one is empty or valid in every state that is reached, so it always
describes a schema. A document is validated before it is saved and stays valid when it is read back, and nothing else
writes to its file: fresh names keep uploads away from it. Should a contact refer to the file of the document and be
deleted, the document is empty again.
-/

namespace AddressBook.Service

open Document (Usable)
open FileTree (SameFolders)
open Http (Body Request Response)

variable {start service : Service} {turn : Turn}

/-- No upload with the fresh name of an occasion is stored in the place of the schema document. -/
def SparesDocument (service : Service) (occasion : Occasion) : Prop :=
  ∀ clientName, service.files.locate
      (Path.join service.settings.uploadDir (UploadStore.storedName occasion.freshName clientName)) ≠
    service.files.locate service.settings.schemaPath

/-- A bare fresh name that the name of the document does not begin with. -/
theorem sparesDocument_of_name {occasion : Occasion} {above : Place} {name : String}
    (hlocate : service.files.locate service.settings.schemaPath = .ok (above ++ [name]))
    (hbare : UploadStore.isBareName occasion.freshName = true)
    (hname : ¬ occasion.freshName.toList <+: name.toList) : service.SparesDocument occasion := by
  intro clientName hsame
  have hstored := UploadStore.isBareName_storedName hbare clientName
  obtain ⟨folder, -, hplace⟩ := service.uploads.exists_folder_of_locate hstored (hsame.trans hlocate)
  obtain ⟨-, hlast⟩ := List.append_inj' hplace rfl
  obtain ⟨suffix, hsuffix, -⟩ := UploadStore.exists_storedName occasion.freshName clientName
  have heq : name = UploadStore.storedName occasion.freshName clientName := List.singleton_inj.1 hlast
  exact hname ⟨suffix, (heq ▸ hsuffix).symm⟩

theorem sparesDocument_inEmptyFolder {occasion : Occasion} (hname : occasion.freshName = "0") :
    inEmptyFolder.SparesDocument occasion := by
  have hlocate : inEmptyFolder.files.locate inEmptyFolder.settings.schemaPath = .ok ([] ++ ["config.json"]) := rfl
  refine sparesDocument_of_name hlocate ?_ ?_ <;> rw [hname] <;> decide

/-- What every state has that is reached from a start. -/
structure KeepsSchema (start service : Service) : Prop where
  settings : service.settings = start.settings
  folders : SameFolders start.files service.files
  uploads : service.files.createFolders service.settings.uploadDir = (service.files, .ok ())
  document : service.documents.Keeps Usable service.files

theorem KeepsSchema.ready (hkeeps : KeepsSchema start service) : service.Ready where
  document := by
    obtain ⟨place, hlocate, -⟩ := hkeeps.document
    exact ⟨place, hlocate⟩
  uploads := hkeeps.uploads

theorem KeepsSchema.stays (hkeeps : KeepsSchema start service) : Stays start service := ⟨hkeeps.settings, hkeeps.folders⟩

/-! ### The start -/

theorem keepsSchema_of_prepared (hprepared : service.Prepared) (hempty : service.currentDocument = .ok (.obj [])) :
    KeepsSchema service service := by
  obtain ⟨⟨place, hlocate⟩, huploads⟩ := ready_of_prepared hprepared
  have hload : service.documents.load service.files = .ok (.obj []) := Except.mapError_eq_ok_iff.1 hempty
  exact ⟨rfl, .refl _, huploads, DocumentStore.keeps_of_load hlocate hload (.inl rfl)⟩

/-! ### Turns -/

section Keeps

variable {P : Json → Prop}

theorem keeps_removeFiles (hempty : P (.obj [])) {store : DocumentStore} {uploads : UploadStore} {files : FileTree}
    {names : List String} (hkeeps : store.Keeps P files) : store.Keeps P (removeFiles uploads files names) := by
  induction names generalizing files with
  | nil => exact hkeeps
  | cons name rest ih =>
      have hfirst : store.Keeps P (uploads.remove files name).1 := by
        rcases uploads.remove_cases files name with hsame | ⟨path, hremove⟩
        · rw [hsame]
          exact hkeeps
        · exact hkeeps.remove hempty hremove
      exact ih hfirst

theorem keeps_upload (hready : service.Ready) (hstays : Stays start service)
    (hdocument : service.documents.Keeps P service.files) {occasion : Occasion} (hspares : start.SparesDocument occasion)
    (clientName : String) (content : Text.Bytes) :
    service.documents.Keeps P (service.uploads.save service.files occasion.freshName clientName content).1 := by
  rcases service.uploads.save_of_createFolders hready.uploads occasion.freshName clientName
    content with ⟨fault, hsave⟩ | ⟨path, written, hpath, hwrite, hsave⟩
  · rw [hsave]
    exact hdocument
  · rw [hsave]
    refine hdocument.write hwrite fun hlands => ?_
    obtain ⟨place, hlocate⟩ := hready.document
    have hname : path = Path.join start.settings.uploadDir (UploadStore.storedName occasion.freshName clientName) := by
      rw [← hstays.settings]
      exact (UploadStore.resolve_eq_ok_iff.1 hpath).2
    have hupload := hstays.folders.locate_eq_ok_iff.1 (hlands.trans hlocate)
    have hown : start.files.locate start.settings.schemaPath = .ok place := by
      rw [← hstays.settings]
      exact hstays.folders.locate_eq_ok_iff.1 hlocate
    exact hspares clientName (hname ▸ hupload.trans hown.symm)

end Keeps

theorem keeps_putDocument (hkeeps : KeepsSchema start service) {request : Request} {document : Json}
    (hdocument : service.validDocument request = .ok document) :
    service.documents.Keeps Usable (service.documents.save service.files document).1 := by
  obtain ⟨read, hjson, hvalidate⟩ := Except.bind_eq_ok_iff.1 hdocument
  obtain ⟨hwell, hdepth⟩ := Input.wellFormed_and_depth_le_of_json hjson
  split at hvalidate
  · rename_i hvalid
    obtain rfl := Except.ok.inj hvalidate
    exact hkeeps.document.saving hwell hdepth (.inr (Document.validate_withFloats hvalid))
  · nomatch hvalidate

theorem KeepsSchema.next (hkeeps : KeepsSchema start service) (hspares : start.SparesDocument turn.occasion) :
    KeepsSchema start (service.next turn) := by
  have hsame := sameFolders_next hkeeps.uploads turn
  have hdocument : service.documents.Keeps Usable (service.next turn).files := by
    have hstep := fileStep_next service turn
    generalize (service.next turn).files = files at hstep
    cases hstep with
    | none => exact hkeeps.document
    | saved hdocument => exact keeps_putDocument hkeeps hdocument
    | uploaded clientName content => exact keeps_upload hkeeps.ready hkeeps.stays hkeeps.document hspares clientName content
    | removed names => exact keeps_removeFiles (.inl rfl) hkeeps.document
  refine ⟨settings_next.trans hkeeps.settings, hkeeps.folders.trans hsame, ?_, ?_⟩
  · rw [settings_next]
    exact FileTree.createFolders_again hkeeps.uploads hsame.right
  · rw [documents, settings_next]
    exact hdocument

theorem keepsSchema_after (hkeeps : KeepsSchema start service) (turns : List Turn)
    (hspares : ∀ turn ∈ turns, start.SparesDocument turn.occasion) : KeepsSchema start (service.after turns) := by
  induction turns generalizing service with
  | nil => exact hkeeps
  | cons turn rest ih =>
      obtain ⟨hfirst, hrest⟩ := List.forall_mem_cons.1 hspares
      exact ih (hkeeps.next hfirst) hrest

/-! ### What follows for requests -/

theorem KeepsSchema.exists_currentDocument (hkeeps : KeepsSchema start service) :
    ∃ document, service.currentDocument = .ok document ∧ Usable document := by
  obtain ⟨document, hload, husable⟩ := DocumentStore.exists_load_of_keeps hkeeps.document
  exact ⟨document, Except.mapError_eq_ok_iff.2 hload, husable⟩

theorem KeepsSchema.exists_currentSchema (hkeeps : KeepsSchema start service) :
    ∃ schema, service.currentSchema = .ok schema := by
  obtain ⟨document, hdocument, husable⟩ := hkeeps.exists_currentDocument
  obtain ⟨schema, hschema⟩ := Document.exists_ofDocument husable
  refine ⟨{ schema with policy := service.settings.untypedLists }, ?_⟩
  refine Except.bind_eq_ok_iff.2 ⟨document, hdocument, ?_⟩
  rw [schemaOf, hschema]

theorem files_removeReferredFiles {record : Record} {schema : Schema} (hschema : service.currentSchema = .ok schema) :
    (service.removeReferredFiles record).files =
      removeFiles service.uploads service.files (schema.referredFiles record.infos) := by
  rw [removeReferredFiles, hschema]

theorem exists_of_removeContact {segment : List Char} (hok : (service.removeContact segment).2 = .ok ()) :
    ∃ id record, Input.contactId segment = .ok id ∧ service.records.get id = .ok (some record) ∧
      (service.removeContact segment).1 =
        { service with records := (service.records.delete id).1 }.removeReferredFiles record := by
  unfold removeContact at hok ⊢
  cases hid : Input.contactId segment with
  | error error => simp [hid] at hok
  | ok id =>
      simp only [hid, RecordStore.delete_eq] at hok ⊢
      cases hget : service.records.get id with
      | error fault => simp [hget] at hok
      | ok found =>
          cases found with
          | none => simp [hget] at hok
          | some record => exact ⟨id, record, rfl, hget, rfl⟩

theorem ok_of_status_respondEmpty {result : Except Refusal Unit} (hstatus : (respondEmpty result).status = 200) :
    result = .ok () := by
  cases result with
  | error error => exact absurd hstatus error.status_ne
  | ok => rfl

theorem KeepsSchema.files_of_delete (hkeeps : KeepsSchema start service) {occasion : Occasion} {request : Request}
    {segment : List Char} (hmethod : request.method = .delete)
    (hroute : Route.ofPath? (Http.Target.path request.target) = some (.contact segment))
    (hstatus : (service.answer occasion request).2.status = 200) :
    ∃ id record schema, Input.contactId segment = .ok id ∧ service.records.get id = .ok (some record) ∧
      service.currentSchema = .ok schema ∧
      (service.answer occasion request).1.files =
        removeFiles service.uploads service.files (schema.referredFiles record.infos) := by
  obtain ⟨schema, hschema⟩ := hkeeps.exists_currentSchema
  rw [answer_of_delete hmethod hroute] at hstatus ⊢
  obtain ⟨id, record, hid, hrecord, hafter⟩ := exists_of_removeContact (ok_of_status_respondEmpty hstatus)
  refine ⟨id, record, schema, hid, hrecord, hschema, ?_⟩
  dsimp only
  rw [hafter, files_removeReferredFiles]
  · rfl
  · exact hschema

/-- A service that started without a document has a schema in every state that is reached. -/
theorem schema_always_loads (service : Service) (hprepared : service.Prepared)
    (hempty : service.currentDocument = .ok (.obj [])) (turns : List Turn)
    (hspares : ∀ turn ∈ turns, service.SparesDocument turn.occasion) :
    (∃ document, (service.after turns).currentDocument = .ok document ∧
      (document = .obj [] ∨ Document.validate document = .ok ())) ∧
    (∃ schema, (service.after turns).currentSchema = .ok schema) ∧
    (∀ (occasion : Occasion) (request : Request), request.method = .get →
      Route.ofPath? (Http.Target.path request.target) = some .health →
      ((service.after turns).answer occasion request).2 = { status := 200, body := .json (.obj
        [("status", .str "healthy"), ("schema_loaded", .bool true), ("uptime_seconds", .int occasion.uptimeSeconds),
          ("timestamp", .str occasion.now), ("version", .str version)]) }) ∧
    (∀ (occasion : Occasion) (request : Request), request.method = .get → ∀ route ∈ [Route.config, Route.layout],
      Route.ofPath? (Http.Target.path request.target) = some route →
      ((service.after turns).answer occasion request).2.status = 200) ∧
    (∀ (occasion : Occasion) (request : Request) (segment : List Char), request.method = .delete →
      Route.ofPath? (Http.Target.path request.target) = some (.contact segment) →
      ((service.after turns).answer occasion request).2.status = 200 →
      ∃ id record schema, Input.contactId segment = .ok id ∧ (service.after turns).records.get id = .ok (some record) ∧
        (service.after turns).currentSchema = .ok schema ∧
        ((service.after turns).answer occasion request).1.files =
          removeFiles (service.after turns).uploads (service.after turns).files
            (schema.referredFiles record.infos)) := by
  have hkeeps := keepsSchema_after (keepsSchema_of_prepared hprepared hempty) turns hspares
  obtain ⟨document, hdocument, husable⟩ := hkeeps.exists_currentDocument
  obtain ⟨schema, hschema⟩ := hkeeps.exists_currentSchema
  refine ⟨⟨document, hdocument, husable⟩, ⟨schema, hschema⟩, ?_, ?_, ?_⟩
  · intro occasion request hmethod hroute
    rw [answer_of_get hmethod hroute, get, health, hschema]
    rfl
  · intro occasion request hmethod route hmem hroute
    rw [answer_of_get hmethod hroute]
    rcases List.mem_pair.1 hmem with rfl | rfl
    · rw [get, hdocument]
      rfl
    · rw [get, layout, hschema]
      rfl
  · intro occasion request segment hmethod hroute hstatus
    exact hkeeps.files_of_delete hmethod hroute hstatus

/-- A schema is saved, a contact is created, a file is uploaded, and the contact is deleted. -/
def schemaRun : List Turn :=
  [sending .put "/config" "\x7b\"id\":\x7b\"type\":\"str\",\"primary_key\":true,\"required\":true\x7d\x7d".toList,
    sending .post "/contact" "\x7b\"name\":\"Ada\"\x7d".toList,
    { sending .post "/upload" [] with request := {
        method := .post, target := "/upload", contentType := some "multipart/form-data; boundary=b"
        body := Text.Utf8.encodeString
          "--b\r\nContent-Disposition: form-data; name=\"file\"; filename=\"a.png\"\r\n\r\nx\r\n--b--\r\n" } },
    sending .delete "/contact/1" []]

theorem schema_always_loads_inEmptyFolder :
    ∃ schema, (inEmptyFolder.after schemaRun).currentSchema = .ok schema := by
  have hspares : ∀ turn ∈ schemaRun, inEmptyFolder.SparesDocument turn.occasion := by
    have hoccasion : ∀ turn ∈ schemaRun, turn.occasion.freshName = "0" := by decide
    exact fun turn hmem => sparesDocument_inEmptyFolder (hoccasion turn hmem)
  exact (schema_always_loads inEmptyFolder prepared_inEmptyFolder rfl schemaRun hspares).2.1

end AddressBook.Service
