import AddressBook.Proofs.Schema.Checking
import AddressBook.Proofs.Service.Failure
import AddressBook.Proofs.Service.Listing
import AddressBook.Proofs.Service.Schema
/-!
# Stored records fit the schema

What a request creates or updates has passed the check of the schema that was current then. It still passes until another
document is put in place: nothing else changes the document but its removal, and without one every record passes. So what a
run leaves in the store passes if the run tells of it and puts no document in place, and is as it was before the run if not.
-/

namespace AddressBook

open Http (Request Response)
open Json (unsignedBound withFloatsInMembers)

/-- An answer tells that a contact was created or updated. -/
def ContactEvent.Tells (event? : Option ContactEvent) (id : Nat) (contact : Json) : Prop :=
  event? = some (.created id contact) ∨ event? = some (.updated id contact)

namespace Exchange

/-- The request put another document in the place of the current one. -/
def ReplacesDocument (exchange : Exchange) : Prop :=
  exchange.response.status = 200 ∧ exchange.request.method = .put ∧ exchange.route? = some .config

variable {exchange : Exchange}

theorem of_tells {id : Nat} {contact : Json} (htells : ContactEvent.Tells exchange.event? id contact) :
    exchange.response.status = 200 ∧ exchange.answered? = some contact ∧
      (exchange.request.method = .post ∧ exchange.route? = some .contacts ∨
        exchange.request.method = .put ∧ ∃ segment, exchange.route? = some (.contact segment)) := by
  obtain ⟨event, hevent, hcontact⟩ : ∃ event, exchange.event? = some event ∧ event.contact? = some contact := by
    rcases htells with hevent | hevent
    · exact ⟨_, hevent, rfl⟩
    · exact ⟨_, hevent, rfl⟩
  unfold event? at hevent
  split at hevent
  · rename_i hstatus
    obtain ⟨route, hroute, hat⟩ := Option.bind_eq_some_iff.1 hevent
    unfold eventAt? at hat
    split at hat
    · rename_i hmethod
      obtain ⟨answered, hanswered, hat⟩ := Option.bind_eq_some_iff.1 hat
      obtain ⟨own, -, hat⟩ := Option.bind_eq_some_iff.1 hat
      obtain rfl := Option.some.inj hat
      obtain rfl := Option.some.inj hcontact
      exact ⟨hstatus, hanswered, .inl ⟨hmethod, hroute⟩⟩
    · rename_i segment hmethod
      obtain ⟨answered, hanswered, hat⟩ := Option.bind_eq_some_iff.1 hat
      obtain ⟨own, -, hat⟩ := Option.bind_eq_some_iff.1 hat
      obtain rfl := Option.some.inj hat
      obtain rfl := Option.some.inj hcontact
      exact ⟨hstatus, hanswered, .inr ⟨hmethod, segment, hroute⟩⟩
    · obtain ⟨own, -, rfl⟩ := Option.map_eq_some_iff.1 hat
      nomatch hcontact
    · nomatch hat
  · nomatch hevent

end Exchange

namespace Service

variable {start service : Service} {turn : Turn} {occasion : Occasion} {request : Request} {infos : Members}

/-! ### The document from turn to turn -/

theorem files_addContact (service : Service) (occasion : Occasion) (request : Request) :
    (service.addContact occasion request).1.files = service.files := by
  unfold addContact
  cases service.newInfos request <;> rfl

theorem files_changeContact (service : Service) (segment : List Char) (request : Request) :
    (service.changeContact segment request).1.files = service.files := by
  unfold changeContact
  cases service.requestedUpdate segment request <;> rfl

section Keeps

variable {P : Json → Prop} (hdocument : service.documents.Keeps P service.files)

include hdocument

/-- A document that is there is not lost to one that can not be saved. -/
theorem keeps_putDocument_of_error (hready : service.Ready) (hmethod : request.method = .put)
    (hroute : Route.ofPath? (Http.Target.path request.target) = some .config) {error : Refusal}
    (hfails : (service.putDocument request).2 = .error error) :
    service.documents.Keeps P (service.putDocument request).1.files := by
  have hleaves := leaves_putDocument hready hmethod hroute hfails
  generalize (service.putDocument request).1 = after at hleaves ⊢
  cases hleaves with
  | unchanged => exact hdocument
  | drafted hdraft =>
      -- a folder in the place of the document would have kept it from being there
      obtain ⟨own, hplace, hfolder⟩ := hdraft.blocked
      obtain ⟨place, hlocate, hnode⟩ := hdocument
      obtain rfl := Except.ok.inj (hplace.symm.trans hlocate)
      rw [hfolder] at hnode
      rcases hnode with ⟨hnone, -⟩ | ⟨content, document, hfile, -⟩
      · nomatch hnone
      · nomatch hfile

theorem keeps_removeContact (hempty : P (.obj [])) (segment : List Char) :
    service.documents.Keeps P (service.removeContact segment).1.files := by
  unfold removeContact
  split
  · exact hdocument
  · dsimp only
    split
    · exact hdocument
    · exact hdocument
    · unfold removeReferredFiles
      split
      · exact hdocument
      · exact keeps_removeFiles hempty hdocument

theorem keeps_storeUpload (hready : service.Ready) (hstays : Stays start service) (hspares : start.SparesDocument occasion)
    (boundary : String) (request : Request) :
    service.documents.Keeps P (service.storeUpload occasion boundary request).1.files := by
  unfold storeUpload
  split
  · exact hdocument
  · exact keeps_upload hready hstays hdocument hspares _ _

theorem keeps_dispatch (hready : service.Ready) (hstays : Stays start service) (hspares : start.SparesDocument occasion)
    (hempty : P (.obj [])) {route : Route} (hroute : Route.ofPath? (Http.Target.path request.target) = some route)
    (hother : (service.dispatch occasion request route).2.status = 200 →
      ¬ (request.method = .put ∧ route = .config)) :
    service.documents.Keeps P (service.dispatch occasion request route).1.files := by
  unfold dispatch at hother ⊢
  split
  · exact hdocument
  · exact hdocument
  · rename_i hmethod
    rw [hmethod] at hother
    cases hresult : (service.putDocument request).2 with
    | error error => exact keeps_putDocument_of_error hdocument hready hmethod hroute hresult
    | ok value =>
        dsimp only at hother
        rw [hresult] at hother
        exact absurd ⟨rfl, rfl⟩ (hother rfl)
  · dsimp only
    rw [files_addContact]
    exact hdocument
  · dsimp only
    rw [files_changeContact]
    exact hdocument
  · exact keeps_removeContact hdocument hempty _
  · unfold upload
    split
    · exact hdocument
    · exact keeps_storeUpload hdocument hready hstays hspares _ _
  · exact hdocument

/-- A turn that does not replace the document keeps what is known of it, if the empty one has that too. -/
theorem keeps_next (hready : service.Ready) (hstays : Stays start service) (hspares : start.SparesDocument turn.occasion)
    (hempty : P (.obj [])) (hother : ¬ (service.exchange turn).ReplacesDocument) :
    (service.next turn).documents.Keeps P (service.next turn).files := by
  rw [documents, settings_next]
  change service.documents.Keeps P (service.answer turn.occasion turn.request).1.files
  unfold Exchange.ReplacesDocument exchange Exchange.route? at hother
  unfold answer at hother ⊢
  split
  · exact hdocument
  · rename_i hoptions
    split
    · exact hdocument
    · rename_i route hroute
      refine keeps_dispatch hdocument hready hstays hspares hempty hroute ?_
      rintro hstatus ⟨hmethod, rfl⟩
      simp only [if_neg hoptions, hroute] at hother
      exact hother ⟨hstatus, hmethod, trivial⟩

end Keeps

/-! ### What passes the check -/

/-- Infos pass the check of the current schema, the id apart. -/
def Admits (service : Service) (infos : Members) : Prop :=
  ∃ schema, service.currentSchema = .ok schema ∧ schema.check infos [idField] = .ok ()

theorem Admits.next (hadmits : service.Admits infos) (hready : service.Ready) (hstays : Stays start service)
    (hspares : start.SparesDocument turn.occasion) (hother : ¬ (service.exchange turn).ReplacesDocument) :
    (service.next turn).Admits infos := by
  obtain ⟨schema, hschema, hcheck⟩ := hadmits
  obtain ⟨document, hdocument, hloads⟩ := Except.bind_eq_ok_iff.1 hschema
  obtain ⟨place, hplace⟩ := hready.document
  have hown : service.documents.Keeps (fun own => own = document ∨ own = .obj []) service.files :=
    DocumentStore.keeps_of_load hplace (Except.mapError_eq_ok_iff.1 hdocument) (.inl rfl)
  have hkept := keeps_next hown hready hstays hspares (.inr rfl) hother
  obtain ⟨own, hload, hown⟩ := DocumentStore.exists_load_of_keeps hkept
  have hcurrent : (service.next turn).currentDocument = .ok own := Except.mapError_eq_ok_iff.2 hload
  rcases hown with rfl | rfl
  · refine ⟨schema, Except.bind_eq_ok_iff.2 ⟨own, hcurrent, ?_⟩, hcheck⟩
    rw [settings_next]
    exact hloads
  · exact ⟨_, Except.bind_eq_ok_iff.2 ⟨_, hcurrent, rfl⟩, rfl⟩

theorem Admits.withFloats {f : Number.Binary64 → Number.Binary64} (hadmits : service.Admits infos) :
    service.Admits (withFloatsInMembers f infos) := by
  obtain ⟨schema, hschema, hcheck⟩ := hadmits
  exact ⟨schema, hschema, (schema.check_withFloats_record infos [idField]).trans hcheck⟩

theorem admits_insert_iff (value : Json) : service.Admits (infos.insert idField value) ↔ service.Admits infos := by
  have hsame : ∀ schema : Schema, schema.check (infos.insert idField value) [idField] = schema.check infos [idField] :=
    fun schema => Schema.check_congr fun name hname => Assoc.get?_insert_of_ne infos value (List.ne_of_not_mem_cons hname)
  simp only [Admits, hsame]

theorem admits_of_checkInfos {schema : Schema} (hschema : service.currentSchema = .ok schema)
    (hcheck : checkInfos schema infos = .ok ()) : service.Admits infos := by
  refine ⟨schema, hschema, ?_⟩
  unfold checkInfos at hcheck
  split at hcheck
  · assumption
  · nomatch hcheck

/-- The members of a contact pass the check. -/
def AdmitsContact (service : Service) (contact : Json) : Prop :=
  ∃ members, contact = .obj members ∧ service.Admits members

theorem admitsContact_iff (record : Record) : service.AdmitsContact record.contact ↔ service.Admits record.infos := by
  rw [← admits_insert_iff (.int record.id)]
  constructor
  · rintro ⟨members, hcontact, hadmits⟩
    exact Json.obj.inj hcontact ▸ hadmits
  · exact fun hadmits => ⟨_, rfl, hadmits⟩

theorem admitsContact_of_addContact {contact : Json} (hadded : (service.addContact occasion request).2 = .ok contact) :
    service.AdmitsContact contact := by
  unfold addContact at hadded
  split at hadded
  · nomatch hadded
  · rename_i infos hinfos
    obtain ⟨-, schema, hschema, hcheck⟩ := exists_of_newInfos hinfos
    obtain rfl := Except.ok.inj hadded
    exact (admitsContact_iff _).2 (admits_of_checkInfos hschema hcheck)

theorem admitsContact_of_changeContact {segment : List Char} {contact : Json}
    (hchanged : (service.changeContact segment request).2 = .ok contact) : service.AdmitsContact contact := by
  unfold changeContact at hchanged
  split at hchanged
  · nomatch hchanged
  · rename_i id infos hupdate
    obtain ⟨-, record, changes, hrecord, -, -, schema, hschema, hcheck⟩ := exists_of_requestedUpdate hupdate
    rw [storeUpdate_of_get hrecord] at hchanged
    obtain rfl := Except.ok.inj hchanged
    exact (admitsContact_iff _).2 (admits_of_checkInfos hschema hcheck)

theorem ok_of_answered {result : Except Refusal Json} {contact : Json} (hstatus : (respond result).status = 200)
    (hanswered : Exchange.answered? { request, response := respond result } = some contact) : result = .ok contact := by
  cases result with
  | error error => exact absurd hstatus error.status_ne
  | ok value =>
      obtain rfl := Option.some.inj hanswered
      rfl

theorem admitsContact_of_tells {id : Nat} {contact : Json}
    (htells : ContactEvent.Tells (service.exchange turn).event? id contact) : service.AdmitsContact contact := by
  obtain ⟨hstatus, hanswered, ⟨hmethod, hroute⟩ | ⟨hmethod, segment, hroute⟩⟩ := Exchange.of_tells htells
  · have hanswer := @answer_of_postContact service turn.request turn.occasion hmethod hroute
    rw [exchange, hanswer] at hstatus hanswered
    exact admitsContact_of_addContact (ok_of_answered hstatus hanswered)
  · have hanswer := @answer_of_putContact service turn.request turn.occasion hmethod segment hroute
    rw [exchange, hanswer] at hstatus hanswered
    exact admitsContact_of_changeContact (ok_of_answered hstatus hanswered)

end Service

/-! ### What is in the store -/

/-- What a step leaves in the store is what it tells of, or has been there and is not told of. -/
theorem RecordStep.exists_holds {limit : Nat} {request : Request} {store store' : RecordStore}
    {event? : Option ContactEvent} (hstep : RecordStep limit request store store' event?) {stored : List Record}
    (hholds : store.Holds stored) (hnext : store.nextId ≤ unsignedBound) :
    ∃ stored', store'.Holds stored' ∧ ∀ record ∈ stored', ContactEvent.Tells event? record.id record.contact ∨
      record ∈ stored ∧ ∀ contact, ¬ ContactEvent.Tells event? record.id contact := by
  cases hstep with
  | none =>
      refine ⟨stored, hholds, fun record hmem => .inr ⟨hmem, ?_⟩⟩
      rintro contact (hevent | hevent) <;> nomatch hevent
  | created now hinfos =>
      refine ⟨_, hholds.create now (Input.sound_of_infos hinfos _ now), fun record hmem => ?_⟩
      rcases List.mem_append.1 hmem with hmem | hmem
      · refine .inr ⟨hmem, ?_⟩
        -- the id that is told of is a new one
        have hfresh := hholds.fresh record hmem
        rintro contact (hevent | hevent)
        · obtain ⟨hid, -⟩ := ContactEvent.created.inj (Option.some.inj hevent)
          omega
        · nomatch hevent
      · obtain rfl := List.mem_singleton.1 hmem
        exact .inl (.inl rfl)
  | updated hrecord hchanges =>
      obtain ⟨old, hold, rfl, -, rfl⟩ := hholds.exists_of_get hnext hrecord
      have hsound := sound_extend (Record.sound_readBack (hholds.sound old hold)) hchanges
      have hmemIds : old.id ∈ stored.map Record.id := List.mem_map_of_mem hold
      refine ⟨_, hholds.write hsound hmemIds, fun record hmem => ?_⟩
      rcases Record.mem_replaced hmem with rfl | ⟨hmem, hne⟩
      · exact .inl (.inr rfl)
      · refine .inr ⟨hmem, ?_⟩
        rintro contact (hevent | hevent)
        · nomatch hevent
        · obtain ⟨hid, -⟩ := ContactEvent.updated.inj (Option.some.inj hevent)
          exact hne hid.symm
  | deleted | lost =>
      refine ⟨_, hholds.erase _, fun record hmem => .inr ⟨List.mem_of_mem_filter hmem, ?_⟩⟩
      rintro contact (hevent | hevent) <;> nomatch hevent

theorem Arises.infos_ne_nil {limit : Nat} {request : Request} {known : List Record} {event? : Option ContactEvent}
    {record : Record} (harises : Arises limit request known event? record)
    (hknown : ∀ other ∈ known, other.infos ≠ []) : record.infos ≠ [] := by
  cases harises with
  | sent newId inserted hinfos => exact Input.infos_ne_nil hinfos
  | merged hrecord hchanges => exact Assoc.extend_ne_nil (Record.infos_readBack_ne_nil (hknown _ hrecord)) _

namespace Service

variable {start service : Service} {turn : Turn} {infos : Members}

theorem exists_holds_after {stored : List Record} (turns : List Turn) (hholds : service.records.Holds stored)
    (hbound : service.records.nextId + (createdIds (service.history turns)).length ≤ unsignedBound) :
    ∃ stored', (service.after turns).records.Holds stored' ∧ ∀ record ∈ stored',
      (∃ exchange ∈ service.history turns, ContactEvent.Tells exchange.event? record.id record.contact) ∨
        record ∈ stored ∧
          ∀ exchange ∈ service.history turns, ∀ contact, ¬ ContactEvent.Tells exchange.event? record.id contact := by
  induction turns generalizing service stored with
  | nil => exact ⟨stored, hholds, fun record hmem => .inr ⟨hmem, nofun⟩⟩
  | cons turn rest ih =>
      obtain ⟨middle, hmiddle, hfirst⟩ := (recordStep_next service turn).exists_holds hholds (by omega)
      obtain ⟨stored', hholds', hrest⟩ := ih hmiddle (bound_next hbound)
      refine ⟨stored', hholds', fun record hmem => ?_⟩
      rcases hrest record hmem with ⟨exchange, hexchange, htells⟩ | ⟨hmem, hquietRest⟩
      · exact .inl ⟨exchange, List.mem_cons_of_mem _ hexchange, htells⟩
      · rcases hfirst record hmem with htells | ⟨hmem, hquiet⟩
        · exact .inl ⟨service.exchange turn, List.mem_cons_self, htells⟩
        · exact .inr ⟨hmem, List.forall_mem_cons.2 ⟨hquiet, hquietRest⟩⟩

/-! ### Runs that leave the document alone -/

/-- Turns that are taken after others, none of which puts another document in place. -/
structure QuietRun (start service : Service) (turns : List Turn) : Prop where
  ready : start.Ready
  stays : Stays start service
  spares : ∀ turn ∈ turns, start.SparesDocument turn.occasion
  quiet : ∀ exchange ∈ service.history turns, ¬ exchange.ReplacesDocument

section QuietRun

variable {rest turns : List Turn}

theorem QuietRun.spares_first (hrun : QuietRun start service (turn :: rest)) : start.SparesDocument turn.occasion :=
  hrun.spares turn List.mem_cons_self

theorem QuietRun.quiet_first (hrun : QuietRun start service (turn :: rest)) :
    ¬ (service.exchange turn).ReplacesDocument := hrun.quiet _ List.mem_cons_self

theorem QuietRun.next (hrun : QuietRun start service (turn :: rest)) : QuietRun start (service.next turn) rest where
  ready := hrun.ready
  stays := hrun.stays.next hrun.ready turn
  spares own hmem := hrun.spares own (List.mem_cons_of_mem _ hmem)
  quiet exchange hmem := hrun.quiet exchange (List.mem_cons_of_mem _ hmem)

theorem Admits.after (hadmits : service.Admits infos) (hrun : QuietRun start service turns) :
    (service.after turns).Admits infos := by
  induction turns generalizing service with
  | nil => exact hadmits
  | cons turn rest ih =>
      have hready := hrun.stays.ready hrun.ready
      exact ih (hadmits.next hready hrun.stays hrun.spares_first hrun.quiet_first) hrun.next

/-- What the answers of a run tell of passes the check at its end. -/
theorem admitsContact_after (hrun : QuietRun start service turns) {exchange : Exchange}
    (hmem : exchange ∈ service.history turns) {id : Nat} {contact : Json}
    (htells : ContactEvent.Tells exchange.event? id contact) : (service.after turns).AdmitsContact contact := by
  induction turns generalizing service with
  | nil => nomatch hmem
  | cons turn rest ih =>
      rcases List.mem_cons.1 hmem with rfl | hmem
      · obtain ⟨members, hcontact, hadmits⟩ := admitsContact_of_tells htells
        exact ⟨members, hcontact, hadmits.after hrun⟩
      · exact ih hrun.next hmem

end QuietRun

/-! ### Every record of a run -/

theorem infos_of_prepared (hprepared : service.Prepared) {turns : List Turn}
    (hids : (createdIds (service.history turns)).length < unsignedBound) {id : Nat} {record : Record}
    (hrecord : (service.after turns).records.get id = .ok (some record)) :
    record.infos ≠ [] ∧ idField ∉ Assoc.keys record.infos := by
  obtain ⟨known, stored, hmirrors, hinfos⟩ := mirrors_of_prepared (P := fun record => record.infos ≠ []) hprepared hids
    fun exchange _ known record hknown harises => harises.infos_ne_nil hknown
  obtain ⟨own, hown, -, -, rfl⟩ := hmirrors.holds.exists_of_get (nextId_le_of_prepared hprepared hids) hrecord
  have hmem := hmirrors.sublist.subset hown
  exact ⟨Record.infos_readBack_ne_nil (hinfos own hmem), (Record.sound_readBack (hmirrors.orderly.sound own hmem)).noId⟩

/-- What has been stored since the last new document passes the check of the current schema. -/
theorem recent_records_fit_schema (service : Service) (hprepared : service.Prepared) (earlier recent : List Turn)
    (hspares : ∀ turn ∈ recent, service.SparesDocument turn.occasion)
    (hids : (createdIds (service.history (earlier ++ recent))).length < unsignedBound)
    (hquiet : ∀ exchange ∈ (service.after earlier).history recent, ¬ exchange.ReplacesDocument) :
    (∀ id record, (service.after (earlier ++ recent)).records.get id = .ok (some record) →
      record.infos ≠ [] ∧ idField ∉ Assoc.keys record.infos) ∧
    (∀ exchange ∈ (service.after earlier).history recent, ∀ id contact,
      ContactEvent.Tells exchange.event? id contact →
      (service.after (earlier ++ recent)).AdmitsContact contact ∧
      ∀ record, (service.after (earlier ++ recent)).records.get id = .ok (some record) →
        (service.after (earlier ++ recent)).Admits record.infos) ∧
    ∀ id record, (service.after (earlier ++ recent)).records.get id = .ok (some record) →
      (∀ exchange ∈ (service.after earlier).history recent, ∀ contact,
        ¬ ContactEvent.Tells exchange.event? id contact) →
      (service.after earlier).records.get id = .ok (some record) := by
  have hready := ready_of_prepared hprepared
  have hrun : QuietRun service (service.after earlier) recent := ⟨hready, stays_after hready earlier, hspares, hquiet⟩
  have hnext := nextId_le_of_prepared hprepared hids
  have hinfos := fun id record hrecord => @infos_of_prepared service hprepared (earlier ++ recent) hids id record hrecord
  rw [after_append] at hnext hinfos ⊢
  have hbound := hnext
  rw [nextId_after] at hbound
  have hearlier : (createdIds (service.history earlier)).length < unsignedBound := by
    rw [nextId_after, records_of_prepared hprepared] at hbound
    change 1 + _ + _ ≤ unsignedBound at hbound
    omega
  obtain ⟨known, before, hmirrors, -⟩ :=
    mirrors_of_prepared (P := fun _ => True) hprepared hearlier fun _ _ _ _ _ _ => trivial
  obtain ⟨stored, hholds, horigin⟩ := exists_holds_after recent hmirrors.holds hbound
  refine ⟨hinfos, fun exchange hmem id contact htells => ⟨admitsContact_after hrun hmem htells, ?_⟩, ?_⟩
  · intro record hrecord
    obtain ⟨own, hown, rfl, -, rfl⟩ := hholds.exists_of_get hnext hrecord
    rcases horigin own hown with ⟨last, hlast, hcontact⟩ | ⟨-, hnone⟩
    · exact ((admitsContact_iff own).1 (admitsContact_after hrun hlast hcontact)).withFloats
    · exact absurd htells (hnone exchange hmem contact)
  · intro id record hrecord hnone
    obtain ⟨own, hown, rfl, hdepth, rfl⟩ := hholds.exists_of_get hnext hrecord
    rcases horigin own hown with ⟨last, hlast, hcontact⟩ | ⟨hown, -⟩
    · exact absurd hcontact (hnone last hlast _)
    · exact hmirrors.holds.get_eq (by omega) hown hdepth

/-- A document with one field, and then a contact that fits it. -/
def namedDocument : Turn :=
  sending .put "/config" "\x7b\"name\":\x7b\"type\":\"str\",\"primary_key\":true,\"required\":true\x7d\x7d".toList

theorem recent_records_fit_schema_inEmptyFolder :
    (inEmptyFolder.after ([namedDocument] ++ [firstContact])).AdmitsContact (.obj [("name", .str "Ada"), ("id", .int 1)]) ∧
      ∃ record, (inEmptyFolder.after ([namedDocument] ++ [firstContact])).records.get 1 = .ok (some record) ∧
        (inEmptyFolder.after ([namedDocument] ++ [firstContact])).Admits record.infos := by
  have hids : (createdIds (inEmptyFolder.history ([namedDocument] ++ [firstContact]))).length < unsignedBound :=
    (length_createdIds_le _ _).trans_lt (by decide)
  have hspares : ∀ turn ∈ [firstContact], inEmptyFolder.SparesDocument turn.occasion := by
    have hoccasion : ∀ turn ∈ [firstContact], turn.occasion.freshName = "0" := by decide
    exact fun turn hmem => sparesDocument_inEmptyFolder (hoccasion turn hmem)
  have hquiet : ∀ exchange ∈ (inEmptyFolder.after [namedDocument]).history [firstContact],
      ¬ exchange.ReplacesDocument := by
    rintro exchange hmem ⟨-, hmethod, -⟩
    obtain rfl := List.mem_singleton.1 hmem
    nomatch hmethod
  obtain ⟨-, hrecent, -⟩ := recent_records_fit_schema inEmptyFolder prepared_inEmptyFolder [namedDocument] [firstContact]
    hspares hids hquiet
  have htells : ((inEmptyFolder.after [namedDocument]).exchange firstContact).event? =
      some (.created 1 (.obj [("name", .str "Ada"), ("id", .int 1)])) := by decide +kernel
  obtain ⟨hcontact, hstored⟩ := hrecent _ List.mem_cons_self 1 _ (.inl htells)
  have hget : (inEmptyFolder.after ([namedDocument] ++ [firstContact])).records.get 1 =
      .ok (some { id := 1, infos := [("name", .str "Ada")], inserted := "2024-01-01T00:00:00Z" }) := by decide +kernel
  exact ⟨hcontact, _, hget, hstored _ hget⟩

end Service

end AddressBook
