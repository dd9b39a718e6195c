import AddressBook.Proofs.Schema.ReferredFiles
import AddressBook.Proofs.Service.Fit
import AddressBook.Proofs.Service.Serving
/-!
# Uploads from the first request to the last

An upload puts one file in the folder of the uploads, under a name that no other upload has. Nothing but the removal of a
contact takes it away again: of one that refers to the name under the schema of that moment. Until then the name is
answered with the content of the upload, and from then on it is not found. Nothing else in the folder is touched, unless the
settings keep the document there: then a new document is written to it, and to its draft before.
-/

namespace AddressBook

open Http (Request Response)
open Text (Bytes)

/-! ### Uploads and references -/

def Turn.Uploads (turn : Turn) : Prop :=
  turn.request.method = .post ∧ Route.ofPath? (Http.Target.path turn.request.target) = some .upload

instance (turn : Turn) : Decidable turn.Uploads := inferInstanceAs (Decidable (_ ∧ _))

/-- A record has a name as an image, or in a list of images. -/
def Field.RefersTo (field : Field) (record : Members) (name : String) : Prop :=
  (field.kind = .image ∧ record.get? field.name = some (.str name)) ∨
    (field.kind = .list ∧ field.innerKind? = some .image ∧
      ∃ items, record.get? field.name = some (.arr items) ∧ Json.str name ∈ items)

theorem Field.mem_referredFiles_iff {field : Field} {value : Json} {name : String} :
    name ∈ field.referredFiles value ↔ (field.kind = .image ∧ value = .str name) ∨
      (field.kind = .list ∧ field.innerKind? = some .image ∧ ∃ items, value = .arr items ∧ Json.str name ∈ items) := by
  have hlist : field.innerKind? = some .image → field.kind = .list := by
    intro hinner
    by_contra hkind
    rw [Field.innerKind?, if_neg hkind] at hinner
    cases hinner
  have hitems : name ∈ (value.asArray?.getD []).filterMap Json.asString? ↔
      ∃ items, value = .arr items ∧ Json.str name ∈ items := by
    simp only [List.mem_filterMap, Json.asString?_eq_some_iff, exists_eq_right, ← Json.asArray?_eq_some_iff]
    cases value.asArray? <;> simp
  unfold Field.referredFiles
  split
  · rename_i hkind
    rw [Kind.holdsFile_iff] at hkind
    simp [hkind, Json.asString?_eq_some_iff]
  · rename_i hkind
    rw [Kind.holdsFile_iff] at hkind
    split
    · rename_i hinner
      obtain ⟨kind, hsome, hholds⟩ := (Option.any_eq_true _ _).1 hinner
      obtain rfl := Kind.holdsFile_iff.1 hholds
      simp [hsome, hlist hsome, hitems]
    · rename_i hinner
      have hnone : field.innerKind? ≠ some .image := by
        intro hsome
        rw [hsome] at hinner
        exact hinner rfl
      simp [hkind, hnone]

theorem Schema.mem_referredFiles_iff {schema : Schema} {record : Members} {name : String} :
    name ∈ schema.referredFiles record ↔ ∃ field ∈ schema.fields, field.RefersTo record name := by
  rw [Schema.referredFiles, List.mem_flatMap]
  refine exists_congr fun field => and_congr_right fun _ => ?_
  unfold Field.RefersTo
  cases record.get? field.name with
  | none => simp
  | some value => simp [Field.mem_referredFiles_iff]

namespace Service

variable {start service : Service} {turn : Turn} {name : String} {content : Bytes} {place : Place}

/-- The turn is answered with the name that the file of its form is stored under. -/
def Stores (service : Service) (turn : Turn) (name : String) (content : Bytes) : Prop :=
  turn.Uploads ∧
    (service.answer turn.occasion turn.request).2 = { status := 200, body := .json (.obj [("filename", .str name)]) } ∧
    ∃ boundary part, (Http.MediaType.ofHeader? turn.request.contentType).bind Http.MediaType.boundary? = some boundary ∧
      (Http.Multipart.read boundary turn.request.body).1.find? (·.name == some filePart) = some part ∧
      part.content = content

def Removes (service : Service) (turn : Turn) (record : Record) : Prop :=
  turn.request.method = .delete ∧ (service.answer turn.occasion turn.request).2.status = 200 ∧
    ∃ segment id, Route.ofPath? (Http.Target.path turn.request.target) = some (.contact segment) ∧
      Input.contactId segment = .ok id ∧ service.records.get id = .ok (some record)

/-- The turn removes a contact that refers to a name under the schema of the service. -/
def Discards (service : Service) (turn : Turn) (name : String) : Prop :=
  ∃ record schema, service.Removes turn record ∧ service.currentSchema = .ok schema ∧
    ∃ field ∈ schema.fields, field.RefersTo record.infos name

def DiscardsIn (service : Service) (name : String) : List Turn → Prop
  | [] => False
  | turn :: rest => service.Discards turn name ∨ (service.next turn).DiscardsIn name rest

/-- A name that no file of the service has yet. -/
structure Fresh (service : Service) (fresh : String) : Prop where
  plain : UploadStore.IsPlain fresh
  unused : ∀ clientName place,
    service.files.locate (Path.join service.settings.uploadDir (UploadStore.storedName fresh clientName)) = .ok place →
      service.files.node? place = none ∧ service.files.locate service.settings.schemaPath ≠ .ok place ∧
        service.files.locate service.documents.draftPath ≠ .ok place

/-! ### Removing files -/

theorem node?_removeFiles (uploads : UploadStore) (files : FileTree) (names : List String) (place : Place) :
    (removeFiles uploads files names).node? place = files.node? place ∨
      (∃ name ∈ names, UploadStore.isBareName name = true ∧
        files.locate (Path.join uploads.root name) = .ok place) ∧
      (∃ content, files.node? place = some (.file content)) ∧ (removeFiles uploads files names).node? place = none := by
  induction names generalizing files with
  | nil => exact .inl rfl
  | cons name rest ih =>
      change (removeFiles uploads (uploads.remove files name).1 rest).node? place = _ ∨
        _ ∧ _ ∧ (removeFiles uploads (uploads.remove files name).1 rest).node? place = none
      rcases uploads.remove_eq files name with ⟨gone, content, hbare, hlocate, hfile, hdrop⟩ | ⟨hsame, -⟩
      · rw [hdrop]
        have hfolders := FileTree.sameFolders_drop_file hfile
        by_cases hplace : place = gone
        · subst hplace
          refine .inr ⟨⟨name, List.mem_cons_self, hbare, hlocate⟩, ⟨content, hfile⟩, ?_⟩
          rcases ih (files.drop place) with hkept | ⟨-, -, hgone⟩
          · exact hkept.trans (FileTree.node?_drop_file hfile)
          · exact hgone
        · have hother := ih (files.drop gone)
          rw [FileTree.node?_drop_of_ne hplace] at hother
          refine hother.imp_right fun hremoved => ⟨?_, hremoved.2⟩
          obtain ⟨other, hmem, hbare, hplaced⟩ := hremoved.1
          exact ⟨other, List.mem_cons_of_mem _ hmem, hbare, hfolders.locate_eq_ok_iff.1 hplaced⟩
      · rw [hsame]
        refine (ih files).imp_right fun hremoved => ⟨?_, hremoved.2⟩
        obtain ⟨other, hmem, hother⟩ := hremoved.1
        exact ⟨other, List.mem_cons_of_mem _ hmem, hother⟩

theorem node?_removeFiles_ne_file (uploads : UploadStore) {files : FileTree} {names : List String} (hmem : name ∈ names)
    (hbare : UploadStore.isBareName name = true) (hlocate : files.locate (Path.join uploads.root name) = .ok place)
    (content : Bytes) : (removeFiles uploads files names).node? place ≠ some (.file content) := by
  induction names generalizing files with
  | nil => nomatch hmem
  | cons first rest ih =>
      change (removeFiles uploads (uploads.remove files first).1 rest).node? place ≠ _
      have hfolders : FileTree.SameFolders files (uploads.remove files first).1 := sameFolders_removeFiles uploads files [first]
      rcases List.mem_cons.1 hmem with rfl | hmem
      · have hgone : (uploads.remove files name).1.node? place ≠ some (.file content) := by
          rcases uploads.remove_eq files name with ⟨own, _, -, hown, hfile, hdrop⟩ | ⟨hsame, hnone⟩
          · obtain rfl := Except.ok.inj (hlocate.symm.trans hown)
            rw [hdrop, FileTree.node?_drop_file hfile]
            exact nofun
          · rw [hsame]
            exact hnone place content hbare hlocate
        rcases node?_removeFiles uploads (uploads.remove files name).1 rest place with hkept | ⟨-, -, hnone⟩
        · rw [hkept]
          exact hgone
        · rw [hnone]
          exact nofun
      · exact ih hmem (hfolders.locate_eq_ok_iff.2 hlocate)

/-! ### What a turn does to the uploads -/

/-- What a turn does to the files: only a removal answered with success discards names. -/
inductive UploadStep (service : Service) (turn : Turn) : FileTree → Prop
  | kept (hquiet : ∀ name, ¬ service.Discards turn name) : UploadStep service turn service.files
  | saved {document : Json} (hsends : service.SendsDocument turn.request document)
      (hquiet : ∀ name, ¬ service.Discards turn name) :
      UploadStep service turn (service.documents.save service.files document).1
  | stored {clientName : String} {content : Bytes} {place : Place} (hquiet : ∀ name, ¬ service.Discards turn name)
      (hstores : service.Stores turn (UploadStore.storedName turn.occasion.freshName clientName) content)
      (hbare : UploadStore.isBareName (UploadStore.storedName turn.occasion.freshName clientName) = true)
      (hlocate : service.files.locate (Path.join service.settings.uploadDir
        (UploadStore.storedName turn.occasion.freshName clientName)) = .ok place)
      (hfolder : service.files.node? place ≠ some .folder) :
      UploadStep service turn (service.files.put place (.file content))
  | discarded {names : List String} (hnames : ∀ name, name ∈ names ↔ service.Discards turn name) :
      UploadStep service turn (removeFiles service.uploads service.files names)

theorem Removes.unique {record other : Record} (hremoves : service.Removes turn record)
    (hother : service.Removes turn other) : record = other := by
  obtain ⟨-, -, segment, id, hroute, hid, hget⟩ := hremoves
  obtain ⟨-, -, segment', id', hroute', hid', hget'⟩ := hother
  obtain rfl := Route.contact.inj (Option.some.inj (hroute.symm.trans hroute'))
  obtain rfl := Except.ok.inj (hid.symm.trans hid')
  exact Option.some.inj (Except.ok.inj (hget.symm.trans hget'))

theorem not_discards_of_method (hmethod : turn.request.method ≠ .delete) (name : String) : ¬ service.Discards turn name :=
  fun ⟨_, _, hremoves, _⟩ => hmethod hremoves.1

theorem answer_of_upload (huploads : turn.Uploads) :
    service.answer turn.occasion turn.request = service.upload turn.occasion turn.request := by
  rw [answer_of_route huploads.1 nofun huploads.2]
  unfold dispatch
  rw [huploads.1]

theorem find?_of_uploadedPart {limit : Nat} {boundary : String} {request : Request} {part : Http.Part}
    (hpart : uploadedPart limit boundary request = .ok part) :
    (Http.Multipart.read boundary request.body).1.find? (·.name == some filePart) = some part := by
  unfold uploadedPart at hpart
  split at hpart
  · nomatch hpart
  · dsimp only at hpart
    split at hpart
    · rename_i found hfound
      split at hpart
      · nomatch hpart
      · rw [hfound, Except.ok.inj hpart]
    · split at hpart <;> nomatch hpart

/-- An upload fails and changes nothing, or its file is written and it is answered with the name. -/
theorem upload_cases (hready : service.Ready) (huploads : turn.Uploads) :
    (∃ response : Response, service.answer turn.occasion turn.request = (service, response) ∧ response.status ≠ 200) ∨
      ∃ clientName content place,
        service.Stores turn (UploadStore.storedName turn.occasion.freshName clientName) content ∧
        UploadStore.isBareName (UploadStore.storedName turn.occasion.freshName clientName) = true ∧
        service.files.locate (Path.join service.settings.uploadDir
          (UploadStore.storedName turn.occasion.freshName clientName)) = .ok place ∧
        service.files.node? place ≠ some .folder ∧
        (service.next turn).files = service.files.put place (.file content) := by
  have hanswer : service.answer turn.occasion turn.request = _ := answer_of_upload huploads
  unfold upload at hanswer
  cases hboundary : (Http.MediaType.ofHeader? turn.request.contentType).bind Http.MediaType.boundary? with
  | none =>
      rw [hboundary] at hanswer
      exact .inl ⟨_, hanswer, by decide⟩
  | some boundary =>
      rw [hboundary] at hanswer
      dsimp only [storeUpload] at hanswer
      cases hpart : uploadedPart service.settings.maxUploadBytes boundary turn.request with
      | error refusal =>
          rw [hpart] at hanswer
          exact .inl ⟨_, hanswer, refusal.status_ne⟩
      | ok part =>
          rw [hpart] at hanswer
          dsimp only at hanswer
          rcases service.uploads.save_of_createFolders hready.uploads turn.occasion.freshName (part.fileName.getD "")
            part.content with ⟨fault, hsave⟩ | ⟨path, written, hpath, hwrite, hsave⟩
          · rw [hsave] at hanswer
            exact .inl ⟨_, hanswer, Refusal.status_ne _⟩
          · rw [hsave] at hanswer
            obtain ⟨hbare, rfl⟩ := UploadStore.resolve_eq_ok_iff.1 hpath
            obtain ⟨place, hlocate, hfolder, rfl⟩ := FileTree.write_eq_ok_iff.1 hwrite
            have hstores : service.Stores turn
                (UploadStore.storedName turn.occasion.freshName (part.fileName.getD "")) part.content :=
              ⟨huploads, congrArg Prod.snd hanswer, boundary, part, hboundary, find?_of_uploadedPart hpart, rfl⟩
            exact .inr ⟨_, _, place, hstores, hbare, hlocate, hfolder, congrArg (Service.files ∘ Prod.fst) hanswer⟩

theorem Stores.unique {other : String} {otherContent : Bytes} (hstores : service.Stores turn name content)
    (hother : service.Stores turn other otherContent) : name = other ∧ content = otherContent := by
  obtain ⟨-, hanswer, boundary, part, hboundary, hpart, rfl⟩ := hstores
  obtain ⟨-, hanswer', boundary', part', hboundary', hpart', rfl⟩ := hother
  constructor
  · rw [hanswer] at hanswer'
    simpa using hanswer'
  · obtain rfl := Option.some.inj (hboundary.symm.trans hboundary')
    rw [Option.some.inj (hpart.symm.trans hpart')]

theorem Stores.exists_place (hstores : service.Stores turn name content) (hready : service.Ready) :
    ∃ clientName place, name = UploadStore.storedName turn.occasion.freshName clientName ∧
      service.files.locate (Path.join service.settings.uploadDir name) = .ok place ∧
      service.files.node? place ≠ some .folder ∧ (service.next turn).files = service.files.put place (.file content) := by
  rcases upload_cases hready hstores.1 with
    ⟨response, hanswer, hstatus⟩ | ⟨clientName, own, place, hown, -, hlocate, hfolder, hafter⟩
  · have hok := hstores.2.1
    rw [hanswer] at hok
    exact absurd (congrArg Response.status hok) hstatus
  · obtain ⟨rfl, rfl⟩ := hstores.unique hown
    exact ⟨clientName, place, rfl, hlocate, hfolder, hafter⟩

theorem files_removeContact_of_error {segment : List Char} {refusal : Refusal}
    (hfails : (service.removeContact segment).2 = .error refusal) : (service.removeContact segment).1.files = service.files := by
  unfold removeContact at hfails ⊢
  split
  · rfl
  · rename_i id hid
    rw [hid] at hfails
    dsimp only at hfails ⊢
    split
    · rfl
    · rfl
    · rename_i record hrecord
      rw [hrecord] at hfails
      nomatch hfails

theorem files_removeReferredFiles_of_error {record : Record} {refusal : Refusal}
    (hschema : service.currentSchema = .error refusal) : (service.removeReferredFiles record).files = service.files := by
  rw [removeReferredFiles, hschema]

/-- A removal that is answered with success takes along what its record refers to, and no other one does. -/
theorem uploadStep_of_delete (hmethod : turn.request.method = .delete) {segment : List Char}
    (hroute : Route.ofPath? (Http.Target.path turn.request.target) = some (.contact segment)) :
    UploadStep service turn (service.next turn).files := by
  have hanswer : service.answer turn.occasion turn.request = _ := answer_of_delete hmethod hroute
  rw [next, hanswer]
  dsimp only
  cases hresult : (service.removeContact segment).2 with
  | error refusal =>
      rw [files_removeContact_of_error hresult]
      refine .kept fun name hdiscards => ?_
      obtain ⟨record, schema, ⟨-, hstatus, -⟩, -⟩ := hdiscards
      rw [hanswer, hresult] at hstatus
      exact refusal.status_ne hstatus
  | ok _ =>
      obtain ⟨id, record, hid, hget, hafter⟩ := exists_of_removeContact hresult
      have hremoves : service.Removes turn record := by
        refine ⟨hmethod, ?_, segment, id, hroute, hid, hget⟩
        rw [hanswer, hresult]
        rfl
      rw [hafter]
      cases hschema : service.currentSchema with
      | error refusal =>
          have hsame : ({ service with records := (service.records.delete id).1 }.removeReferredFiles record).files =
              service.files := files_removeReferredFiles_of_error hschema
          -- a document that describes no schema refers to nothing
          rw [hsame]
          refine .kept fun name hdiscards => ?_
          obtain ⟨_, _, -, hloaded, -⟩ := hdiscards
          rw [hschema] at hloaded
          cases hloaded
      | ok schema =>
          have hremoved : ({ service with records := (service.records.delete id).1 }.removeReferredFiles record).files =
              removeFiles service.uploads service.files (schema.referredFiles record.infos) := files_removeReferredFiles hschema
          rw [hremoved]
          refine .discarded fun name => Schema.mem_referredFiles_iff.trans ⟨fun hrefers => ?_, fun hdiscards => ?_⟩
          · exact ⟨record, schema, hremoves, hschema, hrefers⟩
          · obtain ⟨own, ownSchema, hown, hownSchema, hrefers⟩ := hdiscards
            obtain rfl := hown.unique hremoves
            obtain rfl := Except.ok.inj (hownSchema.symm.trans hschema)
            exact hrefers

theorem files_putDocument (service : Service) (request : Request) :
    (service.putDocument request).1.files = service.files ∨
      ∃ document, service.validDocument request = .ok document ∧
        (service.putDocument request).1.files = (service.documents.save service.files document).1 := by
  unfold putDocument
  cases service.validDocument request with
  | error refusal => exact .inl rfl
  | ok document =>
      refine .inr ⟨document, rfl, ?_⟩
      dsimp only

theorem uploadStep_dispatch {route : Route} (hroute : Route.ofPath? (Http.Target.path turn.request.target) = some route)
    (hdelete : ∀ segment, route = .contact segment → turn.request.method ≠ .delete) (hupload : ¬ turn.Uploads) :
    UploadStep service turn (service.dispatch turn.occasion turn.request route).1.files := by
  have hquiet : ∀ name, ¬ service.Discards turn name := by
    intro name hdiscards
    obtain ⟨_, _, ⟨hmethod, -, segment, _, hown, -⟩, -⟩ := hdiscards
    exact hdelete segment (Option.some.inj (hroute.symm.trans hown)) hmethod
  unfold dispatch
  split
  · exact .kept hquiet
  · exact .kept hquiet
  · rename_i hmethod
    rcases files_putDocument service turn.request with hsame | ⟨document, hvalid, hsaved⟩
    · dsimp only
      rw [hsame]
      exact .kept hquiet
    · dsimp only
      rw [hsaved]
      exact .saved ⟨hmethod, hroute, hvalid⟩ hquiet
  · dsimp only
    rw [files_addContact]
    exact .kept hquiet
  · dsimp only
    rw [files_changeContact]
    exact .kept hquiet
  · rename_i segment hmethod
    exact absurd hmethod (hdelete segment rfl)
  · rename_i hmethod
    exact absurd ⟨hmethod, hroute⟩ hupload
  · exact .kept hquiet

theorem uploadStep_next (hready : service.Ready) (turn : Turn) : UploadStep service turn (service.next turn).files := by
  by_cases hupload : turn.Uploads
  · have hquiet : ∀ name, ¬ service.Discards turn name := not_discards_of_method (by rw [hupload.1]; exact nofun)
    rcases upload_cases hready hupload with
      ⟨response, hanswer, -⟩ | ⟨clientName, content, place, hstores, hbare, hlocate, hfolder, hafter⟩
    · rw [next, hanswer]
      exact .kept hquiet
    · rw [hafter]
      exact .stored hquiet hstores hbare hlocate hfolder
  by_cases hdelete : ∃ segment, Route.ofPath? (Http.Target.path turn.request.target) = some (.contact segment) ∧
      turn.request.method = .delete
  · obtain ⟨segment, hroute, hmethod⟩ := hdelete
    exact uploadStep_of_delete hmethod hroute
  have hother : ∀ segment, Route.ofPath? (Http.Target.path turn.request.target) = some (.contact segment) →
      turn.request.method ≠ .delete := fun segment hroute hmethod => hdelete ⟨segment, hroute, hmethod⟩
  have hquiet : ∀ name, ¬ service.Discards turn name := by
    intro name hdiscards
    obtain ⟨_, _, ⟨hmethod, -, segment, _, hroute, -⟩, -⟩ := hdiscards
    exact hother segment hroute hmethod
  unfold next answer
  split
  · exact .kept hquiet
  · split
    · exact .kept hquiet
    · rename_i route hroute
      exact uploadStep_dispatch hroute (fun segment heq => hother segment (heq ▸ hroute)) hupload

/-! ### One place from turn to turn -/

/-- The place of an upload in the folder, away from the document and its draft. -/
structure Watches (start : Service) (fresh clientName : String) (place : Place) : Prop where
  plain : UploadStore.IsPlain fresh
  locate : start.files.locate (Path.join start.settings.uploadDir (UploadStore.storedName fresh clientName)) = .ok place
  document : start.files.locate start.settings.schemaPath ≠ .ok place
  draft : start.files.locate start.documents.draftPath ≠ .ok place

def SparesName (turn : Turn) (fresh : String) : Prop :=
  turn.Uploads → UploadStore.IsPlain turn.occasion.freshName ∧ fresh ≠ turn.occasion.freshName

theorem Stays.locate_eq_ok_iff (hstays : Stays start service) {name : String} :
    service.files.locate (Path.join service.settings.uploadDir name) = .ok place ↔
      start.files.locate (Path.join start.settings.uploadDir name) = .ok place := by
  rw [hstays.settings]
  exact hstays.folders.locate_eq_ok_iff

/-- Two bare names that lead to one place are one name. -/
theorem eq_of_locate {other : String} (hbare : UploadStore.isBareName name = true)
    (hother : UploadStore.isBareName other = true)
    (hlocate : start.files.locate (Path.join start.settings.uploadDir name) = .ok place)
    (hsame : start.files.locate (Path.join start.settings.uploadDir other) = .ok place) : name = other := by
  obtain ⟨above, -, hplace⟩ := start.uploads.exists_folder_of_locate hbare hlocate
  obtain ⟨above', -, hplace'⟩ := start.uploads.exists_folder_of_locate hother hsame
  exact List.singleton_inj.1 (List.append_inj' (hplace.symm.trans hplace') rfl).2

section Watches

variable {fresh clientName : String} (hwatches : start.Watches fresh clientName place)

include hwatches

theorem Watches.bare : UploadStore.isBareName (UploadStore.storedName fresh clientName) = true :=
  UploadStore.isBareName_storedName (UploadStore.isBareName_of_isPlain hwatches.plain) clientName

/-- A turn that uploads nothing under the fresh name leaves what is at the place, unless it discards the name. -/
theorem Watches.next (hready : service.Ready) (hstays : Stays start service) (hspares : SparesName turn fresh)
    (hfolder : service.files.node? place ≠ some .folder) :
    (service.Discards turn (UploadStore.storedName fresh clientName) ∧ (service.next turn).files.node? place = none) ∨
      (¬ service.Discards turn (UploadStore.storedName fresh clientName) ∧
        (service.next turn).files.node? place = service.files.node? place) := by
  have hlocate := hstays.locate_eq_ok_iff.2 hwatches.locate
  have hstep := uploadStep_next hready turn
  generalize (service.next turn).files = files at hstep ⊢
  cases hstep with
  | kept hquiet => exact .inr ⟨hquiet _, rfl⟩
  | @saved document _ hquiet =>
      refine .inr ⟨hquiet _, service.documents.node?_save service.files document ?_ ?_⟩
      · rw [documents, hstays.settings]
        exact fun hplace => hwatches.draft (hstays.folders.locate_eq_ok_iff.1 hplace)
      · rw [documents, hstays.settings]
        exact fun hplace => hwatches.document (hstays.folders.locate_eq_ok_iff.1 hplace)
  | stored hquiet hstores hbare hother =>
      refine .inr ⟨hquiet _, FileTree.node?_put_of_ne ?_ _⟩
      -- the file of another upload has another name, so it is at another place
      intro heq
      subst heq
      obtain ⟨hplain, hne⟩ := hspares hstores.1
      exact hne (UploadStore.fresh_eq_of_storedName hwatches.plain hplain (eq_of_locate hwatches.bare hbare hlocate hother))
  | discarded hnames =>
      by_cases hdiscards : service.Discards turn (UploadStore.storedName fresh clientName)
      · refine .inl ⟨hdiscards, ?_⟩
        have hmem := (hnames _).2 hdiscards
        have hgone := node?_removeFiles_ne_file service.uploads hmem hwatches.bare hlocate
        rcases node?_removeFiles service.uploads service.files _ place with hsame | ⟨-, -, hnone⟩
        · rw [hsame] at hgone ⊢
          cases hnode : service.files.node? place with
          | none => rfl
          | some node =>
              cases node with
              | file content => exact absurd hnode (hgone content)
              | folder => exact absurd hnode hfolder
        · exact hnone
      · refine .inr ⟨hdiscards, ?_⟩
        rcases node?_removeFiles service.uploads service.files _ place with hsame | ⟨⟨other, hmem, hbare, hother⟩, -⟩
        · exact hsame
        · have heq := eq_of_locate hwatches.bare hbare hlocate hother
          exact absurd ((hnames _).1 (heq ▸ hmem)) hdiscards

/-- What is at the place stays there through a run without uploads under the fresh name until the name is discarded. -/
theorem Watches.after (hready : start.Ready) (hstays : Stays start service) {turns : List Turn}
    (hspares : ∀ turn ∈ turns, SparesName turn fresh) (hfolder : service.files.node? place ≠ some .folder) :
    (service.DiscardsIn (UploadStore.storedName fresh clientName) turns ∧ (service.after turns).files.node? place = none) ∨
      (¬ service.DiscardsIn (UploadStore.storedName fresh clientName) turns ∧
        (service.after turns).files.node? place = service.files.node? place) := by
  induction turns generalizing service with
  | nil => exact .inr ⟨id, rfl⟩
  | cons turn rest ih =>
      obtain ⟨hfirst, hrest⟩ := List.forall_mem_cons.1 hspares
      have hnext := hstays.next hready turn
      change (_ ∨ _) ∧ ((service.next turn).after rest).files.node? place = _ ∨
        ¬ (_ ∨ _) ∧ ((service.next turn).after rest).files.node? place = _
      -- once nothing is left at the place, nothing comes back to it, so the first discard decides
      rcases hwatches.next (hstays.ready hready) hstays hfirst hfolder with ⟨hdiscards, hnone⟩ | ⟨hkeeps, hsame⟩
      · refine .inl ⟨.inl hdiscards, ?_⟩
        rcases ih hnext hrest (by simp [hnone]) with ⟨-, hgone⟩ | ⟨-, hgone⟩
        · exact hgone
        · exact hgone.trans hnone
      · rw [← hsame] at hfolder ⊢
        rcases ih hnext hrest hfolder with ⟨hdiscards, hgone⟩ | ⟨hkept, hstill⟩
        · exact .inl ⟨.inr hdiscards, hgone⟩
        · exact .inr ⟨not_or.2 ⟨hkeeps, hkept⟩, hstill⟩

theorem Watches.answer_of_get (hstays : Stays start service) {occasion : Occasion} {request : Request}
    (hmethod : request.method = .get)
    (hpath : Http.Target.path request.target =
      "/uploads/".toList ++ (UploadStore.storedName fresh clientName).toList)
    (hfolder : service.files.node? place ≠ some .folder) :
    (service.answer occasion request).2 = nodeResponse (service.files.node? place) := by
  have hpercent := UploadStore.percent_not_mem_storedName hwatches.plain clientName
  rw [Service.answer_of_get hmethod (hpath ▸ Route.ofPath?_uploads _)]
  change service.serveFile ('/' :: (UploadStore.storedName fresh clientName).toList) = _
  rw [serveFile_of_locate hwatches.bare hpercent (hstays.locate_eq_ok_iff.2 hwatches.locate) hfolder]

end Watches

/-! ### Every upload of a run -/

/-- A turn sends a valid document, and a place is that of the document or that of its draft. -/
structure WritesDocument (service : Service) (turn : Turn) (place : Place) : Prop where
  sends : ∃ document, service.SendsDocument turn.request document
  place : service.files.locate service.settings.schemaPath = .ok place ∨
    service.files.locate service.documents.draftPath = .ok place

/-- What a turn does at a place where it writes no document. -/
inductive Touches (service : Service) (turn : Turn) (place : Place) : Option FileNode → Option FileNode → Prop
  | kept {node? : Option FileNode} (hkeeps : ∀ name content, service.Discards turn name →
      UploadStore.isBareName name = true →
      service.files.locate (Path.join service.settings.uploadDir name) = .ok place → node? ≠ some (.file content)) :
      Touches service turn place node? node?
  | added {name : String} {content : Bytes} (hstores : service.Stores turn name content)
      (hlocate : service.files.locate (Path.join service.settings.uploadDir name) = .ok place) :
      Touches service turn place none (some (.file content))
  | removed {name : String} (content : Bytes) (hdiscards : service.Discards turn name)
      (hbare : UploadStore.isBareName name = true)
      (hlocate : service.files.locate (Path.join service.settings.uploadDir name) = .ok place) :
      Touches service turn place (some (.file content)) none

theorem touches_of_quiet (hquiet : ∀ name, ¬ service.Discards turn name) (node? : Option FileNode) :
    service.Touches turn place node? node? :=
  .kept fun name _ hdiscards => absurd hdiscards (hquiet name)

theorem touches_next (hready : service.Ready)
    (hunused : ∀ clientName own, turn.Uploads → service.files.locate (Path.join service.settings.uploadDir
      (UploadStore.storedName turn.occasion.freshName clientName)) = .ok own → service.files.node? own = none) :
    service.Touches turn place (service.files.node? place) ((service.next turn).files.node? place) ∨
      service.WritesDocument turn place := by
  have hstep := uploadStep_next hready turn
  generalize (service.next turn).files = files at hstep ⊢
  cases hstep with
  | kept hquiet => exact .inl (touches_of_quiet hquiet _)
  | @saved document hsends hquiet =>
      by_cases hplace : service.files.locate service.settings.schemaPath = .ok place ∨
          service.files.locate service.documents.draftPath = .ok place
      · exact .inr ⟨⟨document, hsends⟩, hplace⟩
      · obtain ⟨hown, hdraft⟩ := not_or.1 hplace
        rw [service.documents.node?_save service.files document hdraft hown]
        exact .inl (touches_of_quiet hquiet _)
  | @stored clientName content own hquiet hstores hbare hlocate hfolder =>
      by_cases hplace : place = own
      · subst hplace
        rw [FileTree.node?_put_self (FileTree.ne_nil_of_node? hfolder), hunused clientName place hstores.1 hlocate]
        exact .inl (.added hstores hlocate)
      · rw [FileTree.node?_put_of_ne hplace]
        exact .inl (touches_of_quiet hquiet _)
  | @discarded names hnames =>
      rcases node?_removeFiles service.uploads service.files names place with
        hsame | ⟨⟨name, hmem, hbare, hlocate⟩, ⟨content, hfile⟩, hnone⟩
      · rw [hsame]
        refine .inl (.kept fun name content hdiscards hbare hlocate => ?_)
        rw [← hsame]
        exact node?_removeFiles_ne_file service.uploads ((hnames name).2 hdiscards) hbare hlocate content
      · rw [hfile, hnone]
        exact .inl (.removed content ((hnames name).1 hmem) hbare hlocate)

theorem Fresh.watches {fresh : String} (hfresh : start.Fresh fresh) {clientName : String}
    (hlocate : start.files.locate (Path.join start.settings.uploadDir (UploadStore.storedName fresh clientName)) = .ok place) :
    start.Watches fresh clientName place :=
  ⟨hfresh.plain, hlocate, (hfresh.unused clientName place hlocate).2.1, (hfresh.unused clientName place hlocate).2.2⟩

/-- The uploads of a run have fresh names that differ. -/
structure FreshRun (service : Service) (turns : List Turn) : Prop where
  fresh : ∀ turn ∈ turns, turn.Uploads → service.Fresh turn.occasion.freshName
  distinct : turns.Pairwise fun turn later =>
    turn.Uploads → later.Uploads → turn.occasion.freshName ≠ later.occasion.freshName

theorem FreshRun.spares {earlier later : List Turn} (hfresh : service.FreshRun (earlier ++ turn :: later))
    (huploads : turn.Uploads) : (∀ other ∈ earlier, SparesName other turn.occasion.freshName) ∧
      ∀ other ∈ later, SparesName other turn.occasion.freshName := by
  obtain ⟨-, hlater, hbetween⟩ := List.pairwise_append.1 hfresh.distinct
  constructor
  · intro other hmem hother
    have hplain := (hfresh.fresh other (List.mem_append_left _ hmem) hother).plain
    exact ⟨hplain, (hbetween other hmem turn List.mem_cons_self hother huploads).symm⟩
  · intro other hmem hother
    have hplain := (hfresh.fresh other (List.mem_append_right _ (List.mem_cons_of_mem _ hmem)) hother).plain
    exact ⟨hplain, (List.pairwise_cons.1 hlater).1 other hmem huploads hother⟩

theorem FreshRun.unused {earlier later : List Turn} (hfresh : service.FreshRun (earlier ++ turn :: later))
    (hready : service.Ready) (huploads : turn.Uploads) {clientName : String}
    (hlocate : service.files.locate (Path.join service.settings.uploadDir
      (UploadStore.storedName turn.occasion.freshName clientName)) = .ok place) :
    (service.after earlier).files.node? place = none := by
  have hname := hfresh.fresh turn (List.mem_append_right _ List.mem_cons_self) huploads
  have hnone := (hname.unused clientName place hlocate).1
  have hrun := (hname.watches hlocate).after hready ⟨rfl, .refl _⟩ (hfresh.spares huploads).1 (by simp [hnone])
  rcases hrun with ⟨-, hgone⟩ | ⟨-, hsame⟩
  · exact hgone
  · exact hsame.trans hnone

/-- Uploads are served until a removal discards them; besides, a turn writes no file but the document and its draft. -/
theorem uploads_served_until_discarded (service : Service) (hprepared : service.Prepared) (earlier : List Turn) (turn : Turn)
    (later : List Turn) (hfresh : service.FreshRun (earlier ++ turn :: later)) :
    (turn.Uploads → ((service.after earlier).answer turn.occasion turn.request).2.status = 200 →
      ∃ name content, (service.after earlier).Stores turn name content) ∧
    (∀ name content, (service.after earlier).Stores turn name content → ∀ (occasion : Occasion) (request : Request),
      request.method = .get → Http.Target.path request.target = "/uploads/".toList ++ name.toList →
      (¬ ((service.after earlier).next turn).DiscardsIn name later →
        ((service.after (earlier ++ turn :: later)).answer occasion request).2 = { status := 200, body := .file content }) ∧
      (((service.after earlier).next turn).DiscardsIn name later →
        ((service.after (earlier ++ turn :: later)).answer occasion request).2 = { status := 404 })) ∧
    (∀ place : Place, (service.after earlier).Touches turn place ((service.after earlier).files.node? place)
        (((service.after earlier).next turn).files.node? place) ∨
      (service.after earlier).WritesDocument turn place) := by
  have hready := ready_of_prepared hprepared
  have hstays := stays_after hready earlier
  have hreached := hstays.ready hready
  refine ⟨fun huploads hstatus => ?_, fun name content hstores occasion request hmethod hpath => ?_, fun place => ?_⟩
  · rcases upload_cases hreached huploads with ⟨response, hanswer, hfails⟩ | ⟨_, _, _, hstores, -⟩
    · rw [hanswer] at hstatus
      exact absurd hstatus hfails
    · exact ⟨_, _, hstores⟩
  · obtain ⟨clientName, place, rfl, hlocate, hfolder, hafter⟩ := hstores.exists_place hreached
    have hname := hfresh.fresh turn (List.mem_append_right _ List.mem_cons_self) hstores.1
    have hwatches := hname.watches (hstays.locate_eq_ok_iff.1 hlocate)
    have hnext := hstays.next hready turn
    have hfile : ((service.after earlier).next turn).files.node? place = some (.file content) := by
      rw [hafter, FileTree.node?_put_self (FileTree.ne_nil_of_node? hfolder)]
    have hrun := hwatches.after hready hnext (hfresh.spares hstores.1).2 (by simp [hfile])
    have hlast := hnext.after hready later
    have hsplit : service.after (earlier ++ turn :: later) = ((service.after earlier).next turn).after later := by
      rw [after_append]
      rfl
    rw [hsplit]
    constructor
    · intro hkept
      have hnode := (hrun.resolve_left fun hgone => hkept hgone.1).2.trans hfile
      exact (hwatches.answer_of_get hlast hmethod hpath (by simp [hnode])).trans (congrArg nodeResponse hnode)
    · intro hdiscards
      have hnode := (hrun.resolve_right fun hstill => hstill.1 hdiscards).2
      exact (hwatches.answer_of_get hlast hmethod hpath (by simp [hnode])).trans (congrArg nodeResponse hnode)
  · refine touches_next hreached fun clientName own huploads hlocate => ?_
    exact hfresh.unused hready huploads (hstays.locate_eq_ok_iff.1 hlocate)

/-! ### A run -/

theorem fresh_inEmptyFolder {fresh : String} (hplain : UploadStore.IsPlain fresh)
    (hother : fresh ∉ ["config", "uploads", "contacts", "blobs"]) : inEmptyFolder.Fresh fresh := by
  refine ⟨hplain, fun clientName place hlocate => ?_⟩
  have hbare := UploadStore.isBareName_storedName (UploadStore.isBareName_of_isPlain hplain) clientName
  obtain ⟨above, -, hplace⟩ := inEmptyFolder.uploads.exists_folder_of_locate hbare hlocate
  have hne : ∀ other : Place, (∃ name ∈ other.getLast?,
      String.ofList (name.toList.takeWhile (· != '.')) ∈ ["config", "uploads", "contacts", "blobs"]) → other ≠ place := by
    rintro other ⟨name, hlast, hmem⟩ rfl
    rw [hplace, List.getLast?_concat] at hlast
    obtain rfl := Option.some.inj hlast
    rw [UploadStore.takeWhile_storedName hplain, String.ofList_toList] at hmem
    exact hother hmem
  refine ⟨?_, fun hown => ?_, fun hdraft => ?_⟩
  · have hempty : place ≠ [] := by simp [hplace]
    rw [FileTree.node?, if_neg hempty, Assoc.get?_eq_none_iff]
    intro hmem
    obtain ⟨entry, hentry, hkey⟩ := List.mem_map.1 hmem
    have hnames : ∀ entry ∈ inEmptyFolder.files.nodes, ∃ name ∈ entry.1.2.getLast?,
        String.ofList (name.toList.takeWhile (· != '.')) ∈ ["config", "uploads", "contacts", "blobs"] := by decide
    exact hne _ (hnames entry hentry) (congrArg Prod.snd hkey)
  · exact hne ["config.json"] ⟨_, rfl, by decide⟩ (Except.ok.inj hown)
  · exact hne ["config.json.tmp"] ⟨_, rfl, by decide⟩ (Except.ok.inj hdraft)

theorem freshRun_inEmptyFolder {turns : List Turn}
    (hplain : ∀ turn ∈ turns, turn.Uploads → UploadStore.IsPlain turn.occasion.freshName ∧
      turn.occasion.freshName ∉ ["config", "uploads", "contacts", "blobs"])
    (hdistinct : turns.Pairwise fun turn later =>
      turn.Uploads → later.Uploads → turn.occasion.freshName ≠ later.occasion.freshName) :
    inEmptyFolder.FreshRun turns :=
  ⟨fun turn hmem huploads => fresh_inEmptyFolder (hplain turn hmem huploads).1 (hplain turn hmem huploads).2, hdistinct⟩

def photoDescribed : Turn := sending .put "/config"
  "\x7b\"id\":\x7b\"type\":\"str\",\"primary_key\":true,\"required\":true\x7d,\"photo\":\x7b\"type\":\"image\"\x7d\x7d".toList

def photoUploaded : Turn :=
  { sending .post "/upload" [] with request := {
      method := .post, target := "/upload", contentType := some "multipart/form-data; boundary=b"
      body := Text.Utf8.encodeString
        "--b\r\nContent-Disposition: form-data; name=\"file\"; filename=\"a.png\"\r\n\r\nx\r\n--b--\r\n" } }

def photoReferred : Turn := sending .post "/contact" "\x7b\"photo\":\"0.png\"\x7d".toList

def photoDiscarded : Turn := sending .delete "/contact/1" []

theorem stores_photo : (inEmptyFolder.after [photoDescribed]).Stores photoUploaded "0.png" [0x78] := by
  refine ⟨by decide, by decide +kernel, "b", { name := some "file", fileName := some "a.png", content := [0x78] }, ?_⟩
  decide +kernel

theorem discards_photo :
    (((inEmptyFolder.after [photoDescribed]).next photoUploaded).next photoReferred).Discards photoDiscarded "0.png" := by
  have hstate :
      ((((inEmptyFolder.after [photoDescribed]).next photoUploaded).next photoReferred).answer photoDiscarded.occasion
        photoDiscarded.request).2.status = 200 ∧
      (((inEmptyFolder.after [photoDescribed]).next photoUploaded).next photoReferred).records.get 1 = .ok (some {
        id := 1, infos := [("photo", .str "0.png")], inserted := "2024-01-01T00:00:00Z" }) ∧
      (((inEmptyFolder.after [photoDescribed]).next photoUploaded).next photoReferred).currentSchema = .ok {
        fields := [{ name := "id", kind := .str, required := true, primaryKey := true },
          { name := "photo", kind := .image }] } := by
    decide +kernel
  obtain ⟨hstatus, hrecord, hschema⟩ := hstate
  have hroute : Route.ofPath? (Http.Target.path photoDiscarded.request.target) = some (.contact ['1']) := by decide
  refine ⟨_, _, ⟨rfl, hstatus, ['1'], 1, hroute, by decide, hrecord⟩, hschema, ?_⟩
  exact ⟨_, List.mem_cons_of_mem _ List.mem_cons_self, .inl ⟨rfl, rfl⟩⟩

theorem uploads_served_until_discarded_photo :
    ((inEmptyFolder.after [photoDescribed, photoUploaded, photoReferred]).answer photoReferred.occasion
      { method := .get, target := "/uploads/0.png" }).2 = { status := 200, body := .file [0x78] } ∧
    ((inEmptyFolder.after [photoDescribed, photoUploaded, photoReferred, photoDiscarded]).answer photoReferred.occasion
      { method := .get, target := "/uploads/0.png" }).2 = { status := 404 } := by
  have hserved := fun later hfresh => (uploads_served_until_discarded inEmptyFolder prepared_inEmptyFolder [photoDescribed]
    photoUploaded later hfresh).2.1 "0.png" [0x78] stores_photo photoReferred.occasion
    { method := .get, target := "/uploads/0.png" } rfl (by decide)
  constructor
  · have hfresh : inEmptyFolder.FreshRun ([photoDescribed] ++ photoUploaded :: [photoReferred]) :=
      freshRun_inEmptyFolder (by decide) (by decide)
    exact (hserved [photoReferred] hfresh).1 (not_or.2 ⟨not_discards_of_method (by decide) _, id⟩)
  · have hfresh : inEmptyFolder.FreshRun ([photoDescribed] ++ photoUploaded :: [photoReferred, photoDiscarded]) :=
      freshRun_inEmptyFolder (by decide) (by decide)
    exact (hserved [photoReferred, photoDiscarded] hfresh).2 (.inr (.inl discards_photo))

/-- A service whose document is kept among the uploads, prepared in an empty folder. -/
def documentAmongUploads : Service where
  settings := { schemaPath := "uploads/config.json" }
  files := {
    nodes := [((1, ["uploads"]), .folder), ((2, ["uploads", "config.json"]), .file []), ((1, ["contacts.db"]), .folder),
      ((2, ["contacts.db", "blobs"]), .folder)] }

theorem document_written_among_uploads : documentAmongUploads.Prepared ∧ keyDocument.request.method = .put ∧
    (documentAmongUploads.answer keyDocument.occasion keyDocument.request).2.status = 200 ∧
    documentAmongUploads.uploadFolder = .ok ["uploads"] ∧
    documentAmongUploads.files.node? ["uploads", "config.json"] = some (.file []) ∧
    (documentAmongUploads.next keyDocument).files.node? ["uploads", "config.json"] ≠ some (.file []) := by
  refine ⟨⟨{}, rfl⟩, rfl, by decide +kernel, rfl, by decide, ?_⟩
  decide +kernel

end Service

end AddressBook
