import AddressBook.Proofs.Service.Folders
import AddressBook.Proofs.Store.Operations
/-!
# Requests that fail

A request that fails changes none of the stores, unless it is the removal of a contact, which takes the contact away before
its text is read. Every other handler refuses what it refuses before it writes. Only a new document is written in two steps,
of which the second one fails if a folder stands in the place of the document. What has been written then is the draft, and
it stays: among the uploads, if the settings give the document a place there.
-/

namespace AddressBook

open FileTree (SameFolders)
open Http (Request Response)

namespace Service

variable {start service service' : Service} {occasion : Occasion} {request : Request} {error : Refusal}

/-! ### Handlers -/

structure SendsDocument (service : Service) (request : Request) (document : Json) : Prop where
  method : request.method = .put
  route : Route.ofPath? (Http.Target.path request.target) = some .config
  valid : service.validDocument request = .ok document

/-- A draft is written to a place and can not be moved on, because a folder stands where the document is to go. -/
structure LeavesDraft (service : Service) (request : Request) (document : Json) (draft : Place) : Prop
    extends service.SendsDocument request document where
  blocked : ∃ place, service.files.locate service.settings.schemaPath = .ok place ∧
    service.files.node? place = some .folder
  place : service.files.locate service.documents.draftPath = .ok draft

/-- What a failure leaves: the same service, or a draft. -/
inductive Leaves (service : Service) (request : Request) : Service → Prop
  | unchanged : Leaves service request service
  | drafted {document : Json} {draft : Place} (hdraft : service.LeavesDraft request document draft)
      (hnode : service.files.node? draft ≠ some .folder) :
      Leaves service request { service with files := service.files.put draft (.file (DocumentStore.encode document)) }

theorem leaves_putDocument (hready : service.Ready) (hmethod : request.method = .put)
    (hroute : Route.ofPath? (Http.Target.path request.target) = some .config)
    (hfails : (service.putDocument request).2 = .error error) : Leaves service request (service.putDocument request).1 := by
  obtain ⟨place, hplace⟩ := hready.document
  unfold putDocument at hfails ⊢
  cases hdocument : service.validDocument request with
  | error refusal => exact .unchanged
  | ok document =>
      rw [hdocument] at hfails
      dsimp only at hfails ⊢
      have hsaves := service.documents.saves_save service.files document
      generalize service.documents.save service.files document = outcome at hsaves hfails ⊢
      cases hsaves with
      | failed fault => exact .unchanged
      | drafted hwrite hcommit =>
          by_cases hfolder : service.files.node? place = some .folder
          · obtain ⟨draft, hdraft, hnode, rfl⟩ := FileTree.write_eq_ok_iff.1 hwrite
            exact .drafted ⟨⟨hmethod, hroute, hdocument⟩, ⟨place, hplace, hfolder⟩, hdraft⟩ hnode
          · obtain ⟨saved, hsaved⟩ := DocumentStore.exists_commit hwrite hplace hfolder
            rw [hsaved] at hcommit
            nomatch hcommit
      | saved hwrite hcommit => nomatch hfails

theorem addContact_of_error (hfails : (service.addContact occasion request).2 = .error error) :
    (service.addContact occasion request).1 = service := by
  unfold addContact at hfails ⊢
  cases hinfos : service.newInfos request with
  | error refusal => rfl
  | ok infos =>
      rw [hinfos] at hfails
      nomatch hfails

theorem storeUpdate_of_error {id : Nat} {infos : Members} (hfails : (service.storeUpdate id infos).2 = .error error) :
    (service.storeUpdate id infos).1 = service := by
  unfold storeUpdate at hfails ⊢
  dsimp only at hfails ⊢
  cases hupdate : (service.records.update id infos).2 with
  | error fault => rw [RecordStore.update_of_error hupdate]
  | ok record =>
      rw [hupdate] at hfails
      nomatch hfails

theorem changeContact_of_error {segment : List Char} (hfails : (service.changeContact segment request).2 = .error error) :
    (service.changeContact segment request).1 = service := by
  unfold changeContact at hfails ⊢
  cases hupdate : service.requestedUpdate segment request with
  | error refusal => rfl
  | ok update =>
      rw [hupdate] at hfails
      exact storeUpdate_of_error hfails

theorem storeUpload_of_error (hready : service.Ready) {boundary : String}
    (hfails : (service.storeUpload occasion boundary request).2 = .error error) :
    (service.storeUpload occasion boundary request).1 = service := by
  unfold storeUpload at hfails ⊢
  cases hpart : uploadedPart service.settings.maxUploadBytes boundary request with
  | error refusal => rfl
  | ok part =>
      rw [hpart] at hfails
      dsimp only at hfails ⊢
      rcases service.uploads.save_of_createFolders hready.uploads occasion.freshName
        (part.fileName.getD "") part.content with ⟨fault, hsave⟩ | ⟨path, written, -, -, hsave⟩
      · rw [hsave]
      · rw [hsave] at hfails
        nomatch hfails

/-! ### Answers -/

theorem exists_error_of_respond {result : Except Refusal Json} (hstatus : 400 ≤ (respond result).status) :
    ∃ error, result = .error error := by
  cases result with
  | error error => exact ⟨error, rfl⟩
  | ok value => exact absurd hstatus (by simp [respond])

theorem upload_of_failure (hready : service.Ready) (hstatus : 400 ≤ (service.upload occasion request).2.status) :
    (service.upload occasion request).1 = service := by
  unfold upload at hstatus ⊢
  split
  · rfl
  · rename_i boundary hboundary
    rw [hboundary] at hstatus
    obtain ⟨error, hfails⟩ := exists_error_of_respond hstatus
    exact storeUpload_of_error hready hfails

theorem leaves_dispatch (hready : service.Ready) {route : Route}
    (hroute : Route.ofPath? (Http.Target.path request.target) = some route)
    (hother : ∀ segment, route = .contact segment → request.method ≠ .delete)
    (hstatus : 400 ≤ (service.dispatch occasion request route).2.status) :
    Leaves service request (service.dispatch occasion request route).1 := by
  have hquiet : ∀ {after : Service}, after = service → Leaves service request after := by
    rintro _ rfl
    exact .unchanged
  unfold dispatch at hstatus ⊢
  -- the two methods that only read, a case for each handler, and what no route supports
  split
  · exact .unchanged
  · exact .unchanged
  · rename_i hmethod
    rw [hmethod] at hstatus
    obtain ⟨error, hfails⟩ := exists_error_of_respond hstatus
    exact leaves_putDocument hready hmethod hroute hfails
  · rename_i hmethod
    rw [hmethod] at hstatus
    obtain ⟨error, hfails⟩ := exists_error_of_respond hstatus
    exact hquiet (addContact_of_error hfails)
  · rename_i segment hmethod
    rw [hmethod] at hstatus
    obtain ⟨error, hfails⟩ := exists_error_of_respond hstatus
    exact hquiet (changeContact_of_error hfails)
  · rename_i segment hmethod
    exact absurd hmethod (hother segment rfl)
  · rename_i hmethod
    rw [hmethod] at hstatus
    exact hquiet (upload_of_failure hready hstatus)
  · exact .unchanged

theorem leaves_answer (hready : service.Ready)
    (hother : ∀ segment, Route.ofPath? (Http.Target.path request.target) = some (.contact segment) →
      request.method ≠ .delete)
    (hstatus : 400 ≤ (service.answer occasion request).2.status) :
    Leaves service request (service.answer occasion request).1 := by
  unfold answer at hstatus ⊢
  split
  · exact .unchanged
  · rename_i hoptions
    rw [if_neg hoptions] at hstatus
    split
    · exact .unchanged
    · rename_i route hroute
      rw [hroute] at hstatus
      exact leaves_dispatch hready hroute (fun segment heq => hother segment (heq ▸ hroute)) hstatus

theorem answer_fst_of_get (hmethod : request.method = .get) : (service.answer occasion request).1 = service := by
  unfold answer
  split
  · rfl
  · split
    · rfl
    · unfold dispatch
      rw [hmethod]

/-! ### What clients see -/

/-- The place of the folder of uploads; the empty path stands for the working folder. -/
def uploadFolder (service : Service) : Except IoFault Place :=
  if service.settings.uploadDir = "" then .ok service.files.home
  else service.files.follow (service.files.start service.settings.uploadDir) (Path.pieces service.settings.uploadDir)

/-- The same files stand below the folder of uploads, which is there, but for some places. -/
def SameUploadsBut (service service' : Service) (touched : Place → Prop) : Prop :=
  ∃ folder, service.uploadFolder = .ok folder ∧ service'.uploadFolder = .ok folder ∧
    ∀ below : Place, service'.files.node? (folder ++ below) = service.files.node? (folder ++ below) ∨ touched (folder ++ below)

theorem Ready.exists_uploadFolder (hready : service.Ready) : ∃ folder, service.uploadFolder = .ok folder := by
  have hmade := hready.uploads
  unfold FileTree.createFolders at hmade
  unfold uploadFolder
  split at hmade
  · simp at hmade
  · split
    · exact ⟨_, rfl⟩
    · rename_i hpath
      rw [if_neg hpath] at hmade
      exact FileTree.exists_follow_of_makeFolders hmade

theorem Stays.uploadFolder_eq_ok (hstays : Stays start service) {folder : Place}
    (hfolder : start.uploadFolder = .ok folder) : service.uploadFolder = .ok folder := by
  unfold uploadFolder at hfolder ⊢
  rw [hstays.settings, FileTree.start_eq hstays.folders.right.home, hstays.folders.right.home]
  split at hfolder
  · rename_i hempty
    rw [if_pos hempty]
    exact hfolder
  · rename_i hpath
    rw [if_neg hpath]
    exact FileTree.follow_eq_ok hstays.folders.right hfolder

theorem node?_ne_folder_of_currentDocument {current : Json} {place : Place}
    (hcurrent : service.currentDocument = .ok current) (hplace : service.files.locate service.settings.schemaPath = .ok place) :
    service.files.node? place ≠ some .folder := by
  intro hfolder
  have hload : service.documents.load service.files = .ok current := Except.mapError_eq_ok_iff.1 hcurrent
  rw [DocumentStore.load, documents, FileTree.read_of_folder hplace hfolder] at hload
  cases hload

/-- Where a document can be read, another one leaves no draft. -/
theorem not_leavesDraft {current : Json} (hcurrent : service.currentDocument = .ok current) (document : Json) (place : Place) :
    ¬ service.LeavesDraft request document place := by
  rintro ⟨-, ⟨own, hown, hfolder⟩, -⟩
  exact node?_ne_folder_of_currentDocument hcurrent hown hfolder

section Leaves

variable (hleaves : Leaves service request service')

include hleaves

theorem Leaves.records : service'.records = service.records := by
  cases hleaves <;> rfl

theorem Leaves.currentDocument : service'.currentDocument = service.currentDocument := by
  cases hleaves with
  | unchanged => rfl
  | @drafted document draft hdraft hnode =>
      obtain ⟨place, hplace, hfolder⟩ := hdraft.blocked
      have hsame := FileTree.sameFolders_put hnode (DocumentStore.encode document)
      -- there was no document to read, and there is none now
      have hbefore := FileTree.read_of_folder hplace hfolder
      have hafter := FileTree.read_of_folder (hsame.locate_eq_ok_iff.2 hplace) (hsame.right.folder place hfolder)
      unfold Service.currentDocument DocumentStore.load
      dsimp only [documents]
      rw [hbefore, hafter]

theorem Leaves.sameUploadsBut (hready : service.Ready) :
    SameUploadsBut service service' fun place => ∃ document, service.LeavesDraft request document place ∧
      service'.files.node? place = some (.file (DocumentStore.encode document)) := by
  obtain ⟨folder, huploads⟩ := hready.exists_uploadFolder
  cases hleaves with
  | unchanged => exact ⟨folder, huploads, huploads, fun _ => .inl rfl⟩
  | @drafted document draft hdraft hnode =>
      have hstays : Stays service { service with files := service.files.put draft (.file (DocumentStore.encode document)) } :=
        ⟨rfl, FileTree.sameFolders_put hnode _⟩
      refine ⟨folder, huploads, hstays.uploadFolder_eq_ok huploads, fun below => ?_⟩
      by_cases hplace : folder ++ below = draft
      · rw [hplace]
        exact .inr ⟨document, hdraft, FileTree.node?_put_self (FileTree.ne_nil_of_node? hnode) _⟩
      · exact .inl (FileTree.node?_put_of_ne hplace _)

end Leaves

/-- A request that fails, no removal of a contact, changes nothing but the draft it may leave; a `GET` changes nothing. -/
theorem failure_changes_nothing (service : Service) (hprepared : service.Prepared) (turns : List Turn)
    (occasion : Occasion) (request : Request) :
    (400 ≤ ((service.after turns).answer occasion request).2.status →
      (∀ segment, Route.ofPath? (Http.Target.path request.target) = some (.contact segment) →
        request.method ≠ .delete) →
      ((service.after turns).answer occasion request).1.currentDocument = (service.after turns).currentDocument ∧
      ((service.after turns).answer occasion request).1.records = (service.after turns).records ∧
      SameUploadsBut (service.after turns) ((service.after turns).answer occasion request).1 fun place =>
        ∃ document, (service.after turns).LeavesDraft request document place ∧
          ((service.after turns).answer occasion request).1.files.node? place =
            some (.file (DocumentStore.encode document))) ∧
    (request.method = .get → ((service.after turns).answer occasion request).1 = service.after turns) := by
  have hready := ready_of_prepared hprepared
  have hreached := (stays_after hready turns).ready hready
  refine ⟨fun hstatus hother => ?_, answer_fst_of_get⟩
  have hleaves := leaves_answer hreached hother hstatus
  exact ⟨hleaves.currentDocument, hleaves.records, hleaves.sameUploadsBut hreached⟩

def firstContact : Turn := sending .post "/contact" "\x7b\"name\":\"Ada\"\x7d".toList

/-- A document without a primary key. -/
def keylessDocument : Turn := sending .put "/config" "\x7b\x7d".toList

theorem failure_changes_nothing_inEmptyFolder :
    400 ≤ ((inEmptyFolder.after [firstContact]).answer keylessDocument.occasion keylessDocument.request).2.status ∧
    ((inEmptyFolder.after [firstContact]).answer keylessDocument.occasion keylessDocument.request).1.records =
      (inEmptyFolder.after [firstContact]).records ∧
    SameUploadsBut (inEmptyFolder.after [firstContact])
      ((inEmptyFolder.after [firstContact]).answer keylessDocument.occasion keylessDocument.request).1 fun _ => False := by
  have hstatus : 400 ≤
      ((inEmptyFolder.after [firstContact]).answer keylessDocument.occasion keylessDocument.request).2.status := by
    decide +kernel
  have hdocument : (inEmptyFolder.after [firstContact]).currentDocument = .ok (.obj []) := by decide +kernel
  have hmethod : keylessDocument.request.method ≠ .delete := nofun
  obtain ⟨-, hrecords, folder, hbefore, hafter, huploads⟩ := (failure_changes_nothing inEmptyFolder prepared_inEmptyFolder
    [firstContact] keylessDocument.occasion keylessDocument.request).1 hstatus fun _ _ => hmethod
  refine ⟨hstatus, hrecords, folder, hbefore, hafter, fun below => (huploads below).imp_right ?_⟩
  rintro ⟨document, hdraft, -⟩
  exact not_leavesDraft hdocument document _ hdraft

/-- A service whose document is to be kept among the uploads, where a folder has its name. -/
def folderAmongUploads : Service where
  settings := { schemaPath := "uploads/config" }
  files := {
    nodes := [((1, ["uploads"]), .folder), ((2, ["uploads", "config"]), .folder), ((1, ["contacts.db"]), .folder),
      ((2, ["contacts.db", "blobs"]), .folder)] }

theorem prepared_folderAmongUploads : folderAmongUploads.Prepared :=
  ⟨{ nodes := [((1, ["uploads"]), .folder), ((2, ["uploads", "config"]), .folder)] }, rfl⟩

/-- A document with a primary key and nothing else. -/
def keyDocument : Turn := sending .put "/config"
  "\x7b\"id\":\x7b\"type\":\"str\",\"primary_key\":true,\"required\":true\x7d\x7d".toList

theorem draft_left_among_uploads : folderAmongUploads.Prepared ∧ keyDocument.request.method = .put ∧
    (folderAmongUploads.answer keyDocument.occasion keyDocument.request).2.status = 500 ∧
    ¬ SameUploadsBut folderAmongUploads (folderAmongUploads.answer keyDocument.occasion keyDocument.request).1
      fun _ => False := by
  refine ⟨prepared_folderAmongUploads, rfl, by decide +kernel, ?_⟩
  rintro ⟨folder, hfolder, -, hsame⟩
  have huploads : folderAmongUploads.uploadFolder = .ok ["uploads"] := rfl
  obtain rfl := Except.ok.inj (hfolder.symm.trans huploads)
  have hdraft := (hsame ["config.json.tmp"]).resolve_right id
  revert hdraft
  decide +kernel

end Service

end AddressBook
