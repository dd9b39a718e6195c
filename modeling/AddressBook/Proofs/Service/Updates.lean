import AddressBook.Proofs.Assoc.Order
import AddressBook.Proofs.Schema.Records
import AddressBook.Proofs.Service.Input
import AddressBook.Proofs.Service.Steps
/-!
# Updates of a contact that fits the schema

An update is merged into the infos of a contact, and what comes out is checked as a whole. If the contact fits the schema
before, the fields that the update leaves alone pass in any case, so it is accepted exactly if the fields that it sends a
value for pass on what is sent. The first of them that does not is what is reported.
-/

namespace AddressBook

open Http (Request Response)

/-! ### Checking merged records -/

namespace Schema

variable {schema : Schema} {record changes : Members} {skip : List String} {violation : Violation}

theorem passes_extend_iff (hfits : schema.check record skip = .ok ()) (hchanges : changes.keys.Nodup) {field : Field}
    (hfield : field ∈ schema.fields) (hname : field.name ∉ skip) :
    field.Passes schema.policy ((record.extend changes).get? field.name) ↔
      ∀ value, changes.get? field.name = some value → field.check schema.policy (some value) = .ok () := by
  rw [Assoc.get?_extend record hchanges]
  cases hget : changes.get? field.name with
  | none =>
      rw [Option.none_or]
      exact iff_of_true (check_eq_ok_iff.1 hfits field hfield hname) nofun
  | some value =>
      rw [Option.some_or, ← Field.check_eq_ok_iff]
      refine ⟨fun hpasses own hown => ?_, fun hall => hall value rfl⟩
      rw [← Option.some.inj hown]
      exact hpasses

theorem check_extend_eq_ok_iff (hfits : schema.check record skip = .ok ()) (hchanges : changes.keys.Nodup) :
    schema.check (record.extend changes) skip = .ok () ↔ ∀ field ∈ schema.fields, field.name ∉ skip →
      ∀ value, changes.get? field.name = some value → field.check schema.policy (some value) = .ok () := by
  rw [check_eq_ok_iff]
  exact forall₃_congr fun field hfield hname => passes_extend_iff hfits hchanges hfield hname

/-- Only a field with a change can fail, and the first one that does is reported. -/
theorem exists_of_check_extend_eq_error (hfits : schema.check record skip = .ok ()) (hchanges : changes.keys.Nodup)
    (hfails : schema.check (record.extend changes) skip = .error violation) :
    ∃ before field after value, schema.fields = before ++ field :: after ∧ field.name ∉ skip ∧
      changes.get? field.name = some value ∧ field.check schema.policy (some value) = .error violation ∧
      ∀ earlier ∈ before, earlier.name ∉ skip → ∀ own, changes.get? earlier.name = some own →
        earlier.check schema.policy (some own) = .ok () := by
  obtain ⟨before, field, after, hfields, hname, hbefore, hfield⟩ := check_eq_error_iff.1 hfails
  have hmem : field ∈ schema.fields := by
    rw [hfields]
    exact List.mem_append_right _ List.mem_cons_self
  have hothers : ∀ earlier ∈ before, earlier.name ∉ skip → ∀ own, changes.get? earlier.name = some own →
      earlier.check schema.policy (some own) = .ok () := by
    intro earlier hearlier hskip
    have hearlierMem : earlier ∈ schema.fields := hfields ▸ List.mem_append_left _ hearlier
    exact (passes_extend_iff hfits hchanges hearlierMem hskip).1 (hbefore earlier hearlier hskip)
  rw [← Field.check_eq_error_iff, Assoc.get?_extend record hchanges] at hfield
  cases hget : changes.get? field.name with
  | none =>
      rw [hget, Option.none_or, Field.check_eq_ok_iff.2 (check_eq_ok_iff.1 hfits field hmem hname)] at hfield
      nomatch hfield
  | some value =>
      rw [hget, Option.some_or] at hfield
      exact ⟨before, field, after, value, hfields, hname, hget, hfield, hothers⟩

end Schema

/-! ### Requests for updates -/

namespace Service

variable {service : Service} {occasion : Occasion} {request : Request} {segment : List Char} {id : Nat} {record : Record}
  {schema : Schema} {members changes : Members}

theorem changeContact_eq (hid : Input.contactId segment = .ok id) (hrecord : service.records.get id = .ok (some record))
    (hchanges : Input.infos service.settings.maxUploadBytes request = .ok changes)
    (hschema : service.currentSchema = .ok schema) : service.changeContact segment request =
      match schema.check (record.infos.extend changes) [idField] with
      | .ok () =>
          ({ service with records := service.records.write { record with infos := record.infos.extend changes } },
            .ok { record with infos := record.infos.extend changes }.contact)
      | .error violation => (service, .error (.record violation)) := by
  have hcontact : service.getContact id = .ok record := by rw [getContact, hrecord]
  have hupdate : service.requestedUpdate segment request =
      (checkInfos schema (record.infos.extend changes)).bind fun _ => .ok (id, record.infos.extend changes) := by
    rw [requestedUpdate, hid]
    change (service.getContact id).bind _ = _
    rw [hcontact]
    change (service.changedInfos record request).bind _ = _
    rw [changedInfos, hchanges]
    change (service.currentSchema.bind _).bind _ = _
    rw [hschema]
    change ((checkInfos schema (record.infos.extend changes)).bind _).bind _ = _
    cases checkInfos schema (record.infos.extend changes) <;> rfl
  rw [changeContact, hupdate, checkInfos]
  cases schema.check (record.infos.extend changes) [idField] with
  | error violation => rfl
  | ok _ => exact storeUpdate_of_get hrecord _

end Service

/-- A field that is not the id is sent a value. -/
def Field.Sent (field : Field) (members : Members) (value : Json) : Prop :=
  field.name ≠ idField ∧ members.get? field.name = some value

theorem Field.sent_iff {field : Field} {members : Members} (hnodup : members.keys.Nodup) {value : Json} :
    field.Sent members value ↔
      field.name ∉ [idField] ∧ (members.swapErase idField).get? field.name = some value := by
  rw [Sent, List.mem_singleton]
  refine and_congr_right fun hname => ?_
  rw [Assoc.get?_swapErase_of_ne hnodup hname]

namespace Service

/-- An update of a contact that fits is accepted exactly if every field passes on the value sent for it, if any. -/
theorem update_accepted_iff (service : Service) (occasion : Occasion) (request : Request) (hmethod : request.method = .put)
    (segment : List Char) (hroute : Route.ofPath? (Http.Target.path request.target) = some (.contact segment)) (id : Nat)
    (hid : Input.contactId segment = .ok id) (record : Record) (hrecord : service.records.get id = .ok (some record))
    (schema : Schema) (hschema : service.currentSchema = .ok schema) (hfits : schema.check record.infos [idField] = .ok ())
    (members : Members) (hbody : Input.json service.settings.maxUploadBytes request = .ok (.obj members))
    (hsent : ∃ member ∈ members, member.1 ≠ idField) :
    ((service.answer occasion request).2.status = 200 ↔
      ∀ field ∈ schema.fields, ∀ value, field.Sent members value → field.check schema.policy (some value) = .ok ()) ∧
    ((service.answer occasion request).2.status ≠ 200 →
      ∃ before field after value violation, schema.fields = before ++ field :: after ∧ field.Sent members value ∧
        field.check schema.policy (some value) = .error violation ∧ violation.field = field.name ∧
        (∀ earlier ∈ before, ∀ own, earlier.Sent members own → earlier.check schema.policy (some own) = .ok ()) ∧
        service.answer occasion request = (service, respond (.error (.record violation)))) := by
  obtain ⟨member, hmem, hname⟩ := hsent
  have hnodup := Input.nodup_of_json hbody
  have hchanges := Assoc.nodup_keys_swapErase hnodup idField
  have hpasses : schema.check (record.infos.extend (members.swapErase idField)) [idField] = .ok () ↔
      ∀ field ∈ schema.fields, ∀ value, field.Sent members value → field.check schema.policy (some value) = .ok () := by
    rw [Schema.check_extend_eq_ok_iff hfits hchanges]
    refine forall₂_congr fun field _ => ⟨fun hall value hvalue => ?_, fun hall hfield value hvalue => ?_⟩
    · obtain ⟨hfield, hget⟩ := (Field.sent_iff hnodup).1 hvalue
      exact hall hfield value hget
    · exact hall value ((Field.sent_iff hnodup).2 ⟨hfield, hvalue⟩)
  rw [answer_of_putContact hmethod hroute, ← hpasses,
    changeContact_eq hid hrecord (Input.infos_of_json hbody hmem hname) hschema]
  cases hcheck : schema.check (record.infos.extend (members.swapErase idField)) [idField] with
  | ok _ => exact ⟨iff_of_true rfl rfl, fun hrefused => absurd rfl hrefused⟩
  | error violation =>
      refine ⟨iff_of_false (Refusal.record violation).status_ne nofun, fun _ => ?_⟩
      obtain ⟨before, field, after, value, hfields, hfield, hget, hfails, hothers⟩ :=
        Schema.exists_of_check_extend_eq_error hfits hchanges hcheck
      refine ⟨before, field, after, value, violation, hfields, (Field.sent_iff hnodup).2 ⟨hfield, hget⟩, hfails, ?_, ?_, rfl⟩
      · cases Field.check_eq_error_iff.1 hfails <;> rfl
      · intro earlier hearlier own hown
        obtain ⟨hskip, hget⟩ := (Field.sent_iff hnodup).1 hown
        exact hothers earlier hearlier hskip own hget

/-- A document with a name and a truth value. -/
def activeDocument : Json :=
  .obj [("name", .obj [("type", .str "str"), ("primary_key", .bool true), ("required", .bool true)]),
    ("active", .obj [("type", .str "boolean")])]

def activeSchema : Schema where
  fields := [{ name := "name", kind := .str, required := true, primaryKey := true }, { name := "active", kind := .toggle }]

def activeInfos : Members := [("name", .str "Ada"), ("active", .bool true)]

/-- A service with that document and a contact that fits it. -/
def activeService : Service :=
  { inEmptyFolder with
    files := (inEmptyFolder.documents.save inEmptyFolder.files activeDocument).1
    records := (RecordStore.create {} activeInfos "2024-01-01T00:00:00Z").1 }

def activeTurn (value : String) : Turn := sending .put "/contact/1" ("\x7b\"active\":" ++ value ++ "\x7d").toList

theorem update_accepted_iff_active :
    (activeService.answer (activeTurn "false").occasion (activeTurn "false").request).2.status = 200 ∧
    ∃ violation, violation.field = "active" ∧ activeService.answer (activeTurn "1").occasion (activeTurn "1").request =
      (activeService, respond (.error (.record violation))) := by
  have hroute : Route.ofPath? (Http.Target.path "/contact/1") = some (.contact ['1']) := by decide +kernel
  have hid : Input.contactId ['1'] = .ok 1 := by decide +kernel
  have hrecord : activeService.records.get 1 =
      .ok (some { id := 1, infos := activeInfos, inserted := "2024-01-01T00:00:00Z" }) := by decide +kernel
  have hschema : activeService.currentSchema = .ok activeSchema := by decide +kernel
  have hfits : activeSchema.check activeInfos [idField] = .ok () := by decide
  constructor
  · have hbody : Input.json activeService.settings.maxUploadBytes (activeTurn "false").request =
        .ok (.obj [("active", .bool false)]) := by decide +kernel
    obtain ⟨haccepted, -⟩ := update_accepted_iff activeService (activeTurn "false").occasion _ rfl _ hroute 1 hid _ hrecord
      activeSchema hschema hfits _ hbody ⟨_, List.mem_cons_self, by decide⟩
    refine haccepted.2 fun field hfield value hvalue => ?_
    obtain ⟨hname, rfl⟩ := Prod.mk.inj (List.mem_singleton.1 (Assoc.mem_of_get?_eq_some hvalue.2))
    rcases List.mem_cons.1 hfield with rfl | hfield
    · exact absurd hname (by decide)
    · rw [List.mem_singleton.1 hfield]
      rfl
  · have hbody : Input.json activeService.settings.maxUploadBytes (activeTurn "1").request =
        .ok (.obj [("active", .int 1)]) := by decide +kernel
    obtain ⟨haccepted, hrefused⟩ := update_accepted_iff activeService (activeTurn "1").occasion _ rfl _ hroute 1 hid _ hrecord
      activeSchema hschema hfits _ hbody ⟨_, List.mem_cons_self, by decide⟩
    have hstatus := mt haccepted.1 fun hall =>
      absurd (hall _ (List.mem_cons_of_mem _ List.mem_cons_self) (.int 1) ⟨by decide, rfl⟩) (by decide)
    obtain ⟨before, field, after, value, violation, -, hsent, -, hname, -, hanswer⟩ := hrefused hstatus
    have hmember := List.mem_singleton.1 (Assoc.mem_of_get?_eq_some hsent.2)
    exact ⟨violation, hname.trans (Prod.mk.inj hmember).1, hanswer⟩

end Service

end AddressBook
