import AddressBook.Proofs.Outcome
import AddressBook.Proofs.Service.Run
import AddressBook.Proofs.Store.Records
/-!
# What a turn does

Every turn keeps the settings and takes one step of the records and one of the files. Most turns leave both alone, and
each of the others belongs to one method at one route. The answer tells a client what became of the contacts, except
where a text that is not read back goes missing.
-/

namespace AddressBook

open Http (Body Method Request Response)

/-! ### Ids -/

theorem contactId?_contact (record : Record) : contactId? record.contact = some record.id := by
  simp [contactId?, Record.contact]

namespace Exchange

theorem eventAt?_eq_none {method : Method} {route : Route} (hchanges : ¬ ChangesContacts method route)
    (exchange : Exchange) : exchange.eventAt? method route = none := by
  unfold eventAt?
  split
  · exact absurd .post hchanges
  · exact absurd (.put _) hchanges
  · exact absurd (.delete _) hchanges
  · rfl

/-- An exchange tells nothing if it fails, or if it is about something else. -/
theorem event?_eq_none {exchange : Exchange} (hquiet : exchange.response.status ≠ 200 ∨
    ∀ route, exchange.route? = some route → ¬ ChangesContacts exchange.request.method route) :
    exchange.event? = none := by
  rcases hquiet with hstatus | hchanges
  · exact if_neg hstatus
  · rw [event?, ite_eq_right_iff]
    intro hstatus
    cases hroute : exchange.route? with
    | none => rfl
    | some route => exact eventAt?_eq_none (hchanges route hroute) exchange

theorem event?_of_status {request : Request} {response : Response} (hstatus : response.status = 200) {method : Method}
    (hmethod : request.method = method) {route : Route}
    (hroute : Route.ofPath? (Http.Target.path request.target) = some route) :
    event? { request, response } = eventAt? { request, response } method route := by
  have hsame : route? { request, response } = some route := hroute
  rw [event?, if_pos hstatus, hsame, Option.bind_some, hmethod]

end Exchange

theorem Refusal.status_ne (refusal : Refusal) : refusal.status ≠ 200 := by
  cases refusal <;> simp [Refusal.status]

namespace Service

variable {service : Service} {request : Request} {occasion : Occasion}

/-! ### Steps -/

/-- What a turn does to the files. -/
inductive FileStep (occasion : Occasion) (request : Request) (service : Service) : FileTree → Prop
  | none : FileStep occasion request service service.files
  | saved {document : Json} (hdocument : service.validDocument request = .ok document) :
      FileStep occasion request service (service.documents.save service.files document).1
  | uploaded (clientName : String) (content : Text.Bytes) :
      FileStep occasion request service
        (service.uploads.save service.files occasion.freshName clientName content).1
  | removed (names : List String) :
      FileStep occasion request service (removeFiles service.uploads service.files names)

/-- The outcome of a turn: the settings stay, the records and the files take a step each. -/
structure Effect (occasion : Occasion) (request : Request) (service : Service) (outcome : Service × Response) :
    Prop where
  settings : outcome.1.settings = service.settings
  records : RecordStep service.settings.maxUploadBytes request service.records outcome.1.records
    (Exchange.event? { request, response := outcome.2 })
  files : FileStep occasion request service outcome.1.files
  told : outcome.2.status = 200 →
    ∀ route, Route.ofPath? (Http.Target.path request.target) = some route →
      Exchange.ChangesContacts request.method route → (Exchange.event? { request, response := outcome.2 }).isSome

/-- A turn that leaves the records alone, and that fails or is about something else. -/
theorem effect_of_quiet {outcome : Service × Response} (hquiet : outcome.2.status ≠ 200 ∨
    ∀ route, Route.ofPath? (Http.Target.path request.target) = some route →
      ¬ Exchange.ChangesContacts request.method route)
    (hsettings : outcome.1.settings = service.settings) (hrecords : outcome.1.records = service.records)
    (hfiles : FileStep occasion request service outcome.1.files) : Effect occasion request service outcome where
  settings := hsettings
  records := by
    have hevent : Exchange.event? { request, response := outcome.2 } = none := Exchange.event?_eq_none hquiet
    rw [hevent, hrecords]
    exact .none
  files := hfiles
  told hstatus route hroute hchanges := by
    rcases hquiet with hfails | hother
    · exact absurd hstatus hfails
    · exact absurd hchanges (hother route hroute)

theorem effect_of_failure {response : Response} (hstatus : response.status ≠ 200) :
    Effect occasion request service (service, response) :=
  effect_of_quiet (.inl hstatus) rfl rfl .none

/-! ### Requests about contacts -/

theorem exists_of_newInfos {infos : Members} (hinfos : service.newInfos request = .ok infos) :
    Input.infos service.settings.maxUploadBytes request = .ok infos ∧
      ∃ schema, service.currentSchema = .ok schema ∧ checkInfos schema infos = .ok () := by
  obtain ⟨read, hread, hchecks⟩ := Except.bind_eq_ok_iff.1 hinfos
  obtain ⟨schema, hschema, hchecks⟩ := Except.bind_eq_ok_iff.1 hchecks
  obtain ⟨hcheck, hsame⟩ := Except.then_eq_ok_iff.1 hchecks
  obtain rfl := Except.pure_eq_ok_iff.1 hsame
  exact ⟨hread, schema, hschema, hcheck⟩

theorem effect_addContact (hmethod : request.method = .post)
    (hroute : Route.ofPath? (Http.Target.path request.target) = some .contacts) :
    Effect occasion request service
      ((service.addContact occasion request).1, respond (service.addContact occasion request).2) := by
  unfold addContact
  cases hinfos : service.newInfos request with
  | error error => exact effect_of_failure error.status_ne
  | ok infos =>
      obtain ⟨hread, -⟩ := exists_of_newInfos hinfos
      have hevent : Exchange.event?
          { request, response := respond (.ok (service.records.create infos occasion.now).2.contact) } =
            some (.created service.records.nextId (service.records.create infos occasion.now).2.contact) := by
        rw [Exchange.event?_of_status rfl hmethod hroute]
        simp [Exchange.eventAt?, Exchange.answered?, respond, contactId?_contact, RecordStore.create]
      refine ⟨rfl, ?_, .none, fun _ _ _ _ => hevent ▸ rfl⟩
      rw [hevent]
      exact .created occasion.now hread

theorem get_of_getContact {id : Nat} {record : Record} (hcontact : service.getContact id = .ok record) :
    service.records.get id = .ok (some record) := by
  unfold getContact at hcontact
  split at hcontact
  · rename_i found hfound
    rw [hfound, Except.ok.inj hcontact]
  · simp at hcontact
  · simp at hcontact

/-- The infos that a contact is to have are its own with those in the body, and they have passed the check. -/
theorem exists_of_changedInfos {record : Record} {infos : Members}
    (hchanged : service.changedInfos record request = .ok infos) :
    ∃ changes, Input.infos service.settings.maxUploadBytes request = .ok changes ∧ record.infos.extend changes = infos ∧
      ∃ schema, service.currentSchema = .ok schema ∧ checkInfos schema infos = .ok () := by
  obtain ⟨changes, hchanges, hchecks⟩ := Except.bind_eq_ok_iff.1 hchanged
  obtain ⟨schema, hschema, hchecks⟩ := Except.bind_eq_ok_iff.1 hchecks
  obtain ⟨hcheck, hsame⟩ := Except.then_eq_ok_iff.1 hchecks
  obtain rfl := Except.pure_eq_ok_iff.1 hsame
  exact ⟨changes, hchanges, rfl, schema, hschema, hcheck⟩

theorem exists_of_requestedUpdate {segment : List Char} {id : Nat} {infos : Members}
    (hupdate : service.requestedUpdate segment request = .ok (id, infos)) :
    Input.contactId segment = .ok id ∧ ∃ record changes, service.records.get id = .ok (some record) ∧
      Input.infos service.settings.maxUploadBytes request = .ok changes ∧ record.infos.extend changes = infos ∧
        ∃ schema, service.currentSchema = .ok schema ∧ checkInfos schema infos = .ok () := by
  obtain ⟨found, hid, hrest⟩ := Except.bind_eq_ok_iff.1 hupdate
  obtain ⟨record, hcontact, hrest⟩ := Except.bind_eq_ok_iff.1 hrest
  obtain ⟨changed, hchanged, hsame⟩ := Except.bind_eq_ok_iff.1 hrest
  obtain ⟨rfl, rfl⟩ := Prod.mk.inj (Except.pure_eq_ok_iff.1 hsame)
  obtain ⟨changes, hchecked⟩ := exists_of_changedInfos hchanged
  exact ⟨hid, record, changes, get_of_getContact hcontact, hchecked⟩

theorem storeUpdate_of_get {id : Nat} {record : Record} (hrecord : service.records.get id = .ok (some record))
    (infos : Members) : service.storeUpdate id infos =
      ({ service with records := service.records.write { record with infos } }, .ok { record with infos }.contact) := by
  simp only [storeUpdate, RecordStore.update, hrecord]

theorem effect_changeContact {segment : List Char} (hmethod : request.method = .put)
    (hroute : Route.ofPath? (Http.Target.path request.target) = some (.contact segment)) :
    Effect occasion request service
      ((service.changeContact segment request).1, respond (service.changeContact segment request).2) := by
  unfold changeContact
  cases hupdate : service.requestedUpdate segment request with
  | error error => exact effect_of_failure error.status_ne
  | ok update =>
      obtain ⟨id, infos⟩ := update
      obtain ⟨hid, record, changes, hrecord, hchanges, rfl, -⟩ := exists_of_requestedUpdate hupdate
      have hevent : Exchange.event?
          { request, response := respond (.ok { record with infos := record.infos.extend changes }.contact) } =
            some (.updated id { record with infos := record.infos.extend changes }.contact) := by
        rw [Exchange.event?_of_status rfl hmethod hroute]
        simp [Exchange.eventAt?, Exchange.answered?, respond, hid, Except.toOption]
      dsimp only
      rw [storeUpdate_of_get hrecord]
      refine ⟨rfl, ?_, .none, fun _ _ _ _ => hevent ▸ rfl⟩
      rw [hevent]
      exact .updated hrecord hchanges

theorem effect_removeContact {segment : List Char} (hmethod : request.method = .delete)
    (hroute : Route.ofPath? (Http.Target.path request.target) = some (.contact segment)) :
    Effect occasion request service
      ((service.removeContact segment).1, respondEmpty (service.removeContact segment).2) := by
  unfold removeContact
  cases hid : Input.contactId segment with
  | error error => exact effect_of_failure error.status_ne
  | ok id =>
      dsimp only
      cases hget : service.records.get id with
      | error fault =>
          rw [RecordStore.delete_eq, hget]
          have hevent : Exchange.event? { request, response := respondEmpty (.error (Refusal.ofStore fault)) } =
              none := Exchange.event?_eq_none (.inl (Refusal.status_ne _))
          refine ⟨rfl, ?_, .none, fun hstatus => absurd hstatus (Refusal.status_ne _)⟩
          rw [hevent]
          exact .lost hget
      | ok found =>
          cases found with
          | none =>
              rw [RecordStore.delete_of_get_none hget]
              exact effect_of_failure (Refusal.contactNotFound id).status_ne
          | some record =>
              rw [RecordStore.delete_eq, hget]
              have hevent : Exchange.event? { request, response := respondEmpty (.ok ()) } = some (.deleted id) := by
                rw [Exchange.event?_of_status rfl hmethod hroute]
                simp [Exchange.eventAt?, hid, Except.toOption]
              dsimp only
              unfold removeReferredFiles
              split
              · refine ⟨rfl, ?_, .none, fun _ _ _ _ => hevent ▸ rfl⟩
                rw [hevent]
                exact .deleted hget
              · refine ⟨rfl, ?_, .removed _, fun _ _ _ _ => hevent ▸ rfl⟩
                rw [hevent]
                exact .deleted hget

/-! ### Every turn -/

section Quiet

variable (hquiet : ∀ route, Route.ofPath? (Http.Target.path request.target) = some route →
  ¬ Exchange.ChangesContacts request.method route)

include hquiet

theorem effect_putDocument : Effect occasion request service
    ((service.putDocument request).1, respond (service.putDocument request).2) := by
  unfold putDocument
  cases hdocument : service.validDocument request with
  | error error => exact effect_of_failure error.status_ne
  | ok document =>
      have hfiles : FileStep occasion request service (service.documents.save service.files document).1 :=
        .saved hdocument
      dsimp only
      generalize service.documents.save service.files document = outcome at hfiles ⊢
      obtain ⟨files, saved⟩ := outcome
      exact effect_of_quiet (.inr hquiet) rfl rfl hfiles

theorem effect_upload : Effect occasion request service (service.upload occasion request) := by
  unfold upload
  split
  · exact effect_of_quiet (.inr hquiet) rfl rfl .none
  · rename_i boundary _
    dsimp only
    unfold storeUpload
    split
    · exact effect_of_quiet (.inr hquiet) rfl rfl .none
    · exact effect_of_quiet (.inr hquiet) rfl rfl (.uploaded _ _)

end Quiet

theorem effect_dispatch {route : Route} (hroute : Route.ofPath? (Http.Target.path request.target) = some route) :
    Effect occasion request service (service.dispatch occasion request route) := by
  have hquiet : ¬ Exchange.ChangesContacts request.method route →
      ∀ other, Route.ofPath? (Http.Target.path request.target) = some other →
        ¬ Exchange.ChangesContacts request.method other := by
    intro hchanges other hother
    rw [hroute] at hother
    exact Option.some.inj hother ▸ hchanges
  unfold dispatch
  split
  · rename_i hmethod
    exact effect_of_quiet (.inr (hquiet (by rw [hmethod]; exact nofun))) rfl rfl .none
  · rename_i hmethod
    exact effect_of_quiet (.inr (hquiet (by rw [hmethod]; exact nofun))) rfl rfl .none
  · rename_i hmethod
    exact effect_putDocument (hquiet (by rw [hmethod]; exact nofun))
  · rename_i hmethod
    exact effect_addContact hmethod hroute
  · rename_i segment hmethod
    exact effect_changeContact hmethod hroute
  · rename_i segment hmethod
    exact effect_removeContact hmethod hroute
  · rename_i hmethod
    exact effect_upload (hquiet (by rw [hmethod]; exact nofun))
  · exact effect_of_failure (by simp [methodRefused])

theorem effect_answer (service : Service) (occasion : Occasion) (request : Request) :
    Effect occasion request service (service.answer occasion request) := by
  unfold answer
  split
  · rename_i hmethod
    refine effect_of_quiet (.inr fun route hroute => ?_) rfl rfl .none
    rw [hmethod]
    exact nofun
  · split
    · exact effect_of_failure (by simp)
    · rename_i route hroute
      exact effect_dispatch hroute

/-! ### Answers of routes -/

theorem answer_of_route {method : Method} {route : Route} (hmethod : request.method = method) (hoptions : method ≠ .options)
    (hroute : Route.ofPath? (Http.Target.path request.target) = some route) :
    service.answer occasion request = service.dispatch occasion request route := by
  rw [answer, if_neg (hmethod ▸ hoptions), hroute]

theorem answer_of_get (hmethod : request.method = .get) {route : Route}
    (hroute : Route.ofPath? (Http.Target.path request.target) = some route) :
    (service.answer occasion request).2 = service.get occasion route := by
  rw [answer_of_route hmethod nofun hroute]
  unfold dispatch
  rw [hmethod]

theorem answer_of_delete (hmethod : request.method = .delete) {segment : List Char}
    (hroute : Route.ofPath? (Http.Target.path request.target) = some (.contact segment)) :
    service.answer occasion request =
      ((service.removeContact segment).1, respondEmpty (service.removeContact segment).2) := by
  rw [answer_of_route hmethod nofun hroute]
  unfold dispatch
  rw [hmethod]

theorem answer_of_putConfig (hmethod : request.method = .put)
    (hroute : Route.ofPath? (Http.Target.path request.target) = some .config) :
    service.answer occasion request = ((service.putDocument request).1, respond (service.putDocument request).2) := by
  rw [answer_of_route hmethod nofun hroute]
  unfold dispatch
  rw [hmethod]

theorem answer_of_postContact (hmethod : request.method = .post)
    (hroute : Route.ofPath? (Http.Target.path request.target) = some .contacts) :
    service.answer occasion request =
      ((service.addContact occasion request).1, respond (service.addContact occasion request).2) := by
  rw [answer_of_route hmethod nofun hroute]
  unfold dispatch
  rw [hmethod]

theorem answer_of_putContact (hmethod : request.method = .put) {segment : List Char}
    (hroute : Route.ofPath? (Http.Target.path request.target) = some (.contact segment)) :
    service.answer occasion request =
      ((service.changeContact segment request).1, respond (service.changeContact segment request).2) := by
  rw [answer_of_route hmethod nofun hroute]
  unfold dispatch
  rw [hmethod]

/-! ### Turns and runs -/

variable {turn : Turn}

@[simp] theorem settings_next : (service.next turn).settings = service.settings :=
  (effect_answer service turn.occasion turn.request).settings

theorem settings_after (service : Service) (turns : List Turn) : (service.after turns).settings = service.settings := by
  induction turns generalizing service with
  | nil => rfl
  | cons turn rest ih => exact (ih (service.next turn)).trans settings_next

theorem recordStep_next (service : Service) (turn : Turn) :
    RecordStep service.settings.maxUploadBytes turn.request service.records (service.next turn).records
      (service.exchange turn).event? :=
  (effect_answer service turn.occasion turn.request).records

theorem fileStep_next (service : Service) (turn : Turn) :
    FileStep turn.occasion turn.request service (service.next turn).files :=
  (effect_answer service turn.occasion turn.request).files

end Service

end AddressBook
