import AddressBook.Proofs.Schema.Checking
import AddressBook.Proofs.Service.Schema
/-!
# The policy for lists without an item kind

Two services that differ in nothing but this policy stay that way, turn by turn, as long as the stored document names kinds
for the items of its lists. A document that is empty or valid does, and no other document is ever stored by a request.
-/

namespace AddressBook.Service

open Http (Request Response)

variable {start service : Service} {policy : UntypedLists} {occasion : Occasion} {request : Request}

/-- The same service under another policy. -/
def withPolicy (policy : UntypedLists) (service : Service) : Service :=
  { service with settings := { service.settings with untypedLists := policy } }

theorem prepared_of_prepare {settings : Settings} {files : FileTree} (hprepare : prepare settings files = .ok service) :
    service.Prepared := by
  have hsettings : service.settings = settings := by
    unfold prepare at hprepare
    simp only [Except.then_eq_ok_iff, Except.pure_eq_ok_iff] at hprepare
    exact congrArg Service.settings hprepare.2.2.2.symm
  exact ⟨files, hsettings ▸ hprepare⟩

theorem prepare_withPolicy {settings : Settings} {files : FileTree} {own : UntypedLists}
    (hprepare : prepare { settings with untypedLists := own } files = .ok service) :
    prepare { settings with untypedLists := policy } files = .ok (service.withPolicy policy) := by
  unfold prepare at hprepare ⊢
  simp only [Except.then_eq_ok_iff, Except.pure_eq_ok_iff] at hprepare ⊢
  obtain ⟨hdocuments, huploads, hrecords, rfl⟩ := hprepare
  exact ⟨hdocuments, huploads, hrecords, rfl⟩

/-! ### The schema of a service -/

/-- The lists of the current schema, if there is one, name kinds for their items. -/
def NamesItems (service : Service) : Prop := ∀ schema, service.currentSchema = .ok schema → schema.NamesItems

theorem KeepsSchema.namesItems (hkeeps : KeepsSchema start service) : service.NamesItems := by
  intro schema hschema
  obtain ⟨document, hdocument, husable⟩ := hkeeps.exists_currentDocument
  obtain ⟨own, hown, hloads⟩ := Except.bind_eq_ok_iff.1 hschema
  obtain rfl := Except.ok.inj (hdocument.symm.trans hown)
  unfold schemaOf at hloads
  split at hloads
  · rename_i found hfound
    obtain rfl := Except.ok.inj hloads
    have hitems := Schema.namesItems_of_usable husable hfound
    exact hitems
  · nomatch hloads

theorem currentSchema_withPolicy (service : Service) (policy : UntypedLists) :
    (service.withPolicy policy).currentSchema = service.currentSchema.map fun schema => { schema with policy } := by
  have hloads : ∀ document, schemaOf (service.withPolicy policy).settings document =
      (schemaOf service.settings document).map fun schema => { schema with policy } := by
    intro document
    unfold schemaOf
    cases Schema.ofDocument document <;> rfl
  change (service.currentDocument >>= schemaOf (service.withPolicy policy).settings) = _
  rw [funext hloads]
  cases hdocument : service.currentDocument with
  | error error => rw [currentSchema, hdocument]; rfl
  | ok document => rw [currentSchema, hdocument]; rfl

theorem checked_withPolicy (hitems : service.NamesItems) (infos : Members) :
    (do
      let schema ← (service.withPolicy policy).currentSchema
      checkInfos schema infos
      pure infos) =
      (do
        let schema ← service.currentSchema
        checkInfos schema infos
        pure infos) := by
  rw [currentSchema_withPolicy]
  cases hschema : service.currentSchema with
  | error error => rfl
  | ok schema =>
      have hsame : checkInfos { schema with policy } infos = checkInfos schema infos := by
        rw [checkInfos, checkInfos, Schema.check_policy (hitems schema hschema)]
      exact congrArg (· >>= fun _ => pure infos) hsame

section Parts

variable (service : Service)

@[simp] theorem files_withPolicy : (service.withPolicy policy).files = service.files := rfl

@[simp] theorem records_withPolicy : (service.withPolicy policy).records = service.records := rfl

@[simp] theorem documents_withPolicy : (service.withPolicy policy).documents = service.documents := rfl

@[simp] theorem uploads_withPolicy : (service.withPolicy policy).uploads = service.uploads := rfl

@[simp] theorem validDocument_withPolicy (request : Request) :
    (service.withPolicy policy).validDocument request = service.validDocument request := rfl

end Parts

/-! ### Handlers -/

theorem health_withPolicy (service : Service) (occasion : Occasion) :
    (service.withPolicy policy).health occasion = service.health occasion := by
  rw [health, health, currentSchema_withPolicy]
  cases service.currentSchema <;> rfl

theorem layout_withPolicy (service : Service) : (service.withPolicy policy).layout = service.layout := by
  rw [layout, layout, currentSchema_withPolicy]
  cases service.currentSchema <;> rfl

theorem get_withPolicy (service : Service) (occasion : Occasion) (route : Route) :
    (service.withPolicy policy).get occasion route = service.get occasion route := by
  cases route with
  | health =>
      rw [get, get, health_withPolicy]
  | layout =>
      rw [get, get, layout_withPolicy]
  | _ => rfl

theorem putDocument_withPolicy (service : Service) (request : Request) :
    (service.withPolicy policy).putDocument request =
      ((service.putDocument request).1.withPolicy policy, (service.putDocument request).2) := by
  unfold putDocument
  rw [validDocument_withPolicy]
  cases service.validDocument request with
  | error error => rfl
  | ok document =>
      dsimp only [documents_withPolicy, files_withPolicy]
      generalize service.documents.save service.files document = outcome
      rfl

theorem removeReferredFiles_withPolicy (service : Service) (record : Record) :
    (service.withPolicy policy).removeReferredFiles record = (service.removeReferredFiles record).withPolicy policy := by
  unfold removeReferredFiles
  rw [currentSchema_withPolicy]
  cases service.currentSchema <;> rfl

theorem removeContact_withPolicy (service : Service) (segment : List Char) :
    (service.withPolicy policy).removeContact segment =
      ((service.removeContact segment).1.withPolicy policy, (service.removeContact segment).2) := by
  unfold removeContact
  cases Input.contactId segment with
  | error error => rfl
  | ok id =>
      dsimp only [records_withPolicy]
      generalize service.records.delete id = outcome
      obtain ⟨records, deleted⟩ := outcome
      cases deleted with
      | error fault => rfl
      | ok found =>
          cases found with
          | none => rfl
          | some record =>
              have hremoved := @removeReferredFiles_withPolicy policy { service with records } record
              exact congrArg (·, Except.ok ()) hremoved

theorem storeUpload_withPolicy (service : Service) (occasion : Occasion) (boundary : String) (request : Request) :
    (service.withPolicy policy).storeUpload occasion boundary request =
      ((service.storeUpload occasion boundary request).1.withPolicy policy,
        (service.storeUpload occasion boundary request).2) := by
  have hpart : uploadedPart (service.withPolicy policy).settings.maxUploadBytes boundary request =
      uploadedPart service.settings.maxUploadBytes boundary request := rfl
  unfold storeUpload
  rw [hpart]
  cases uploadedPart service.settings.maxUploadBytes boundary request with
  | error error => rfl
  | ok part =>
      dsimp only [uploads_withPolicy, files_withPolicy]
      generalize service.uploads.save service.files occasion.freshName (part.fileName.getD "") part.content = outcome
      rfl

theorem upload_withPolicy (service : Service) (occasion : Occasion) (request : Request) :
    (service.withPolicy policy).upload occasion request =
      ((service.upload occasion request).1.withPolicy policy, (service.upload occasion request).2) := by
  unfold upload
  cases (Http.MediaType.ofHeader? request.contentType).bind Http.MediaType.boundary? with
  | none => rfl
  | some boundary =>
      dsimp only
      rw [storeUpload_withPolicy]

section Checked

variable (hitems : service.NamesItems)

include hitems

theorem newInfos_withPolicy (request : Request) :
    (service.withPolicy policy).newInfos request = service.newInfos request := by
  rw [newInfos, newInfos]
  simp only [checked_withPolicy hitems]
  rfl

theorem addContact_withPolicy (occasion : Occasion) (request : Request) :
    (service.withPolicy policy).addContact occasion request =
      ((service.addContact occasion request).1.withPolicy policy, (service.addContact occasion request).2) := by
  unfold addContact
  rw [newInfos_withPolicy hitems]
  cases service.newInfos request <;> rfl

theorem changedInfos_withPolicy (record : Record) (request : Request) :
    (service.withPolicy policy).changedInfos record request = service.changedInfos record request := by
  rw [changedInfos, changedInfos]
  simp only [checked_withPolicy hitems]
  rfl

theorem requestedUpdate_withPolicy (segment : List Char) (request : Request) :
    (service.withPolicy policy).requestedUpdate segment request = service.requestedUpdate segment request := by
  have hchanged : (service.withPolicy policy).changedInfos = service.changedInfos :=
    funext fun record => funext (changedInfos_withPolicy hitems record)
  rw [requestedUpdate, requestedUpdate, hchanged]
  rfl

theorem changeContact_withPolicy (segment : List Char) (request : Request) :
    (service.withPolicy policy).changeContact segment request =
      ((service.changeContact segment request).1.withPolicy policy, (service.changeContact segment request).2) := by
  unfold changeContact
  rw [requestedUpdate_withPolicy hitems]
  cases service.requestedUpdate segment request <;> rfl

/-! ### Turns -/

theorem dispatch_withPolicy (occasion : Occasion) (request : Request) (route : Route) :
    (service.withPolicy policy).dispatch occasion request route =
      ((service.dispatch occasion request route).1.withPolicy policy, (service.dispatch occasion request route).2) := by
  unfold dispatch
  split
  · rw [get_withPolicy]
  · rw [get_withPolicy]
  · rw [putDocument_withPolicy]
  · rw [addContact_withPolicy hitems]
  · rw [changeContact_withPolicy hitems]
  · rw [removeContact_withPolicy]
  · rw [upload_withPolicy]
  · rfl

theorem answer_withPolicy (occasion : Occasion) (request : Request) :
    (service.withPolicy policy).answer occasion request =
      ((service.answer occasion request).1.withPolicy policy, (service.answer occasion request).2) := by
  unfold answer
  split
  · rfl
  · split
    · rfl
    · exact dispatch_withPolicy hitems occasion request _

end Checked

/-! ### Runs -/

theorem run_withPolicy (hkeeps : KeepsSchema start service) (turns : List Turn)
    (hspares : ∀ turn ∈ turns, start.SparesDocument turn.occasion) :
    (service.withPolicy policy).after turns = (service.after turns).withPolicy policy ∧
      (service.withPolicy policy).history turns = service.history turns := by
  induction turns generalizing service with
  | nil => exact ⟨rfl, rfl⟩
  | cons turn rest ih =>
      obtain ⟨hfirst, hrest⟩ := List.forall_mem_cons.1 hspares
      have hanswer := @answer_withPolicy service policy hkeeps.namesItems turn.occasion turn.request
      have hnext : (service.withPolicy policy).next turn = (service.next turn).withPolicy policy := congrArg Prod.fst hanswer
      have hexchange : (service.withPolicy policy).exchange turn = service.exchange turn := by
        rw [exchange, exchange, hanswer]
      obtain ⟨hafter, hhistory⟩ := ih (hkeeps.next hfirst) hrest
      refine ⟨?_, ?_⟩
      · change ((service.withPolicy policy).next turn).after rest = _
        rw [hnext, hafter]
        rfl
      · rw [history, history, hexchange, hnext, hhistory]

/-- Services that start without a document and differ in their policy only are never told apart. -/
theorem policy_never_matters (settings : Settings) (files : FileTree) (rejecting accepting : Service)
    (hrejecting : prepare { settings with untypedLists := .reject } files = .ok rejecting)
    (haccepting : prepare { settings with untypedLists := .accept } files = .ok accepting)
    (hempty : rejecting.currentDocument = .ok (.obj [])) (turns : List Turn)
    (hspares : ∀ turn ∈ turns, rejecting.SparesDocument turn.occasion) :
    accepting.history turns = rejecting.history turns ∧
      ∀ done, done <+: turns →
        (accepting.after done).currentDocument = (rejecting.after done).currentDocument ∧
        (accepting.after done).records = (rejecting.after done).records ∧
        (accepting.after done).files = (rejecting.after done).files := by
  obtain rfl : accepting = rejecting.withPolicy .accept :=
    Except.ok.inj (haccepting.symm.trans (prepare_withPolicy hrejecting))
  have hprepared : rejecting.Prepared := prepared_of_prepare hrejecting
  have hkeeps := keepsSchema_of_prepared hprepared hempty
  refine ⟨(run_withPolicy hkeeps turns hspares).2, fun done hdone => ?_⟩
  have hafter := (@run_withPolicy _ _ .accept hkeeps done fun turn hmem => hspares turn (hdone.subset hmem)).1
  rw [hafter]
  exact ⟨rfl, rfl, rfl⟩

/-- A document with a list that names no kind for its items is sent, and a contact with such a list. -/
def untypedRun : List Turn :=
  [sending .put "/config" ("\x7b\"id\":\x7b\"type\":\"str\",\"primary_key\":true,\"required\":true\x7d," ++
      "\"tags\":\x7b\"type\":\"list\",\"additional_type_parameters\":\x7b\x7d\x7d\x7d").toList,
    sending .post "/contact" "\x7b\"tags\":[1,\"a\"]\x7d".toList]

theorem policy_never_matters_inEmptyFolder :
    (inEmptyFolder.withPolicy .accept).history untypedRun = inEmptyFolder.history untypedRun := by
  have hspares : ∀ turn ∈ untypedRun, inEmptyFolder.SparesDocument turn.occasion := by
    have hoccasion : ∀ turn ∈ untypedRun, turn.occasion.freshName = "0" := by decide
    exact fun turn hmem => sparesDocument_inEmptyFolder (hoccasion turn hmem)
  exact (policy_never_matters {} {} inEmptyFolder (inEmptyFolder.withPolicy .accept) rfl rfl rfl untypedRun hspares).1

end AddressBook.Service
