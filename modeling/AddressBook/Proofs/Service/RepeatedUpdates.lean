import AddressBook.Proofs.Assoc.Order
import AddressBook.Proofs.Service.Fit
import AddressBook.Proofs.Service.Updates
/-!
# Updates one after the other

Two updates of a contact should come to what one update does that merges the second body into the first, and an update that
is sent again should change nothing. Both are so but for the doubles: an update reads the contact back from its text, and
stores what it has read in all the members that it is not about. So the outcomes are the same exactly if the doubles in
those members are read back as themselves. Whether an update is accepted never depends on that, for the check sees no doubles.
-/

namespace AddressBook

open Http (Request Response)
open Json (depthLimit reread unsignedBound withFloatsInMembers)

/-! ### Members with other doubles -/

section Doubles

variable {f : Number.Binary64 → Number.Binary64} {infos changes : Members}

theorem extend_withFloats_eq_iff (hinfos : infos.keys.Nodup) (hchanges : changes.keys.Nodup) :
    Assoc.extend (withFloatsInMembers f infos) changes = infos.extend changes ↔
      ∀ member ∈ infos, member.1 ∉ changes.keys → ∀ x ∈ member.2.floats, f x = x := by
  have hkeys : Assoc.keys (withFloatsInMembers f infos) = infos.keys := Json.keys_withFloatsInMembers infos
  constructor
  · intro hsame member hmem hkey
    have hget := congrArg (Assoc.get? · member.1) hsame
    rw [Assoc.get?_extend_of_not_mem _ hkey, Assoc.get?_extend_of_not_mem _ hkey, Json.get?_withFloatsInMembers,
      (Assoc.get?_eq_some_iff_mem hinfos).2 hmem] at hget
    exact Json.withFloats_eq_self_iff.1 (Option.some.inj hget)
  · intro hfloats
    refine Assoc.ext_get? ?_ (Assoc.nodup_keys_extend (hkeys ▸ hinfos) changes) fun key => ?_
    · rw [Assoc.keys_extend _ hchanges, Assoc.keys_extend _ hchanges, hkeys]
    · rw [Assoc.get?_extend _ hchanges, Assoc.get?_extend _ hchanges, Json.get?_withFloatsInMembers]
      cases hchange : changes.get? key with
      | some value => rw [Option.some_or, Option.some_or]
      | none =>
          cases hget : infos.get? key with
          | none => rfl
          | some value =>
              have hsame := hfloats _ (Assoc.mem_of_get?_eq_some hget) (Assoc.get?_eq_none_iff.1 hchange)
              rw [Option.map_some, Json.withFloats_eq_self hsame]

theorem Field.check_map_withFloats (field : Field) (policy : UntypedLists) (value : Option Json) :
    field.check policy (value.map (Json.withFloats f)) = field.check policy value := by
  have hsame := field.check_withFloats (f := id) (g := f) policy value
  rw [Field.withFloats, Json.withFloatsInMembers_id] at hsame
  exact hsame

theorem Schema.check_extend_withFloats (schema : Schema) (hchanges : changes.keys.Nodup) (skip : List String) :
    schema.check (Assoc.extend (withFloatsInMembers f infos) changes) skip = schema.check (infos.extend changes) skip := by
  refine checkFields_congr_self fun field _ => ?_
  rw [Assoc.get?_extend _ hchanges, Assoc.get?_extend _ hchanges, Json.get?_withFloatsInMembers]
  cases changes.get? field.name with
  | some value => rw [Option.some_or, Option.some_or]
  | none => rw [Option.none_or, Option.none_or, Field.check_map_withFloats]

end Doubles

/-! ### Records with other infos -/

theorem depth_extend_le {infos changes : Members} {d : Nat} (hinfos : (Json.obj infos).depth ≤ d + 1)
    (hchanges : (Json.obj changes).depth ≤ d + 1) : (Json.obj (infos.extend changes)).depth ≤ d + 1 := by
  apply Json.depth_obj_le_iff.2
  intro member hmem
  rcases Assoc.mem_extend hmem with hmem | hmem
  · exact Json.depth_obj_le_iff.1 hchanges member hmem
  · exact Json.depth_obj_le_iff.1 hinfos member hmem

namespace Record

/-- The record with changes merged into its infos. -/
def merged (record : Record) (changes : Members) : Record := { record with infos := record.infos.extend changes }

theorem eq_of_contact_eq {record other : Record} (hrecord : record.Sound) (hother : other.Sound) (hid : record.id = other.id)
    (hinserted : record.inserted = other.inserted) (hcontact : record.contact = other.contact) : record = other := by
  rw [contact_eq hrecord, contact_eq hother, hid] at hcontact
  have hinfos : record.infos = other.infos := List.append_cancel_right (Json.obj.inj hcontact)
  cases record
  cases other
  congr

end Record

namespace Service

variable {service reached : Service} {occasion : Occasion} {request first second whole : Request} {id : Nat} {record : Record}
  {changes others : Members}

/-! ### Single updates -/

/-- The request asks for an update of a contact with a body. -/
structure Puts (service : Service) (id : Nat) (request : Request) (body : Json) : Prop where
  method : request.method = .put
  route : ∃ segment, Route.ofPath? (Http.Target.path request.target) = some (.contact segment) ∧
    Input.contactId segment = .ok id
  json : Input.json service.settings.maxUploadBytes request = .ok body

/-- The request updates a contact with an object without an id, nested at most 126 deep. -/
structure Updates (service : Service) (id : Nat) (request : Request) (changes : Members) : Prop
    extends Puts service id request (.obj changes) where
  noId : idField ∉ changes.keys
  depth : (Json.obj changes).depth ≤ 126

/-- The service with a record stored, and the answer that it has been. -/
def updated (service : Service) (record : Record) : Service × Response :=
  ({ service with records := service.records.write record }, { status := 200, body := .json record.contact })

section Updates

variable (hupdates : service.Updates id request changes)

include hupdates

theorem Updates.nodup : changes.keys.Nodup := Input.nodup_of_json hupdates.json

theorem Updates.later (other : Record) : (service.updated other).1.Updates id request changes :=
  ⟨⟨hupdates.method, hupdates.route, hupdates.json⟩, hupdates.noId, hupdates.depth⟩

theorem Updates.infos (hne : changes ≠ []) : Input.infos service.settings.maxUploadBytes request = .ok changes := by
  obtain ⟨member, hmem⟩ := List.exists_mem_of_ne_nil changes hne
  have hname : member.1 ≠ idField := fun heq => hupdates.noId (heq ▸ List.mem_map_of_mem hmem)
  have hinfos := Input.infos_of_json hupdates.json hmem hname
  rw [Assoc.swapErase_of_not_mem hupdates.noId] at hinfos
  exact hinfos

theorem Updates.answer_of_admits (hrecord : service.records.get id = .ok (some record)) (hne : changes ≠ [])
    (hadmits : service.Admits (record.infos.extend changes)) :
    service.answer occasion request = service.updated (record.merged changes) := by
  obtain ⟨segment, hroute, hid⟩ := hupdates.route
  obtain ⟨schema, hschema, hcheck⟩ := hadmits
  rw [answer_of_putContact hupdates.method hroute, changeContact_eq hid hrecord (hupdates.infos hne) hschema, hcheck]
  rfl

/-- An update that is accepted is not empty and has found the contact, and the merged infos have passed the check. -/
theorem Updates.exists_of_status (haccepted : (service.answer occasion request).2.status = 200) :
    changes ≠ [] ∧ ∃ record, service.records.get id = .ok (some record) ∧ service.Admits (record.infos.extend changes) := by
  obtain ⟨segment, hroute, hid⟩ := hupdates.route
  rw [answer_of_putContact hupdates.method hroute, changeContact] at haccepted
  cases hupdate : service.requestedUpdate segment request with
  | error refusal =>
      rw [hupdate] at haccepted
      exact absurd haccepted refusal.status_ne
  | ok update =>
      obtain ⟨other, infos⟩ := update
      obtain ⟨hother, record, own, hrecord, hinfos, rfl, schema, hschema, hcheck⟩ := exists_of_requestedUpdate hupdate
      obtain rfl := Except.ok.inj (hid.symm.trans hother)
      have hne : changes ≠ [] := by
        rintro rfl
        obtain ⟨members, hbody, rfl⟩ := Input.exists_json_of_infos hinfos
        obtain rfl := Json.obj.inj (Except.ok.inj (hupdates.json.symm.trans hbody))
        exact Input.infos_ne_nil hinfos rfl
      obtain rfl := Except.ok.inj ((hupdates.infos hne).symm.trans hinfos)
      exact ⟨hne, record, hrecord, admits_of_checkInfos hschema hcheck⟩

theorem Updates.sound_merged (hne : changes ≠ []) (hsound : record.Sound) : (record.merged changes).Sound :=
  sound_extend hsound (hupdates.infos hne)

theorem Updates.depth_merged (hdepth : record.depth ≤ 126) : (record.merged changes).depth ≤ 126 :=
  depth_extend_le hdepth hupdates.depth

end Updates

theorem Updates.extend (hfirst : service.Updates id first changes) (hsecond : service.Updates id second others)
    (hwhole : service.Puts id whole (.obj (changes.extend others))) : service.Updates id whole (changes.extend others) where
  toPuts := hwhole
  noId := Assoc.not_mem_keys_extend hfirst.noId hsecond.noId
  depth := depth_extend_le hfirst.depth hsecond.depth

/-! ### States that are reached -/

/-- A run of a prepared service that leaves ids to give out has led here. -/
def Reached (reached : Service) : Prop :=
  ∃ (service : Service) (turns : List Turn), service.Prepared ∧
    (createdIds (service.history turns)).length < unsignedBound ∧ service.after turns = reached

theorem Reached.of_get (hreached : reached.Reached) (hrecord : reached.records.get id = .ok (some record)) :
    record.id = id ∧ id < unsignedBound ∧ record.Sound ∧ record.depth ≤ 126 := by
  obtain ⟨service, turns, hprepared, hids, rfl⟩ := hreached
  obtain ⟨hnext, known, stored, hmirrors⟩ := exists_mirrors_of_prepared hprepared hids
  obtain ⟨old, hold, rfl, hdepth, rfl⟩ := hmirrors.holds.exists_of_get hnext hrecord
  have hsound := hmirrors.holds.sound old hold
  have hid : old.id < unsignedBound := Nat.lt_of_lt_of_le (hmirrors.holds.fresh old hold) hnext
  refine ⟨rfl, hid, Record.sound_readBack hsound, ?_⟩
  change (Json.withFloats reread (.obj old.infos)).depth ≤ 126
  rw [Json.depth_withFloats]
  exact Nat.le_of_lt_succ hdepth

theorem get_updated (service : Service) (hsound : record.Sound) (hid : record.id < unsignedBound) (hdepth : record.depth ≤ 126) :
    (service.updated record).1.records.get record.id = .ok (some record.readBack) := by
  have htext : (service.updated record).1.records.entries.get? record.id = some record.encode :=
    service.records.get?_write record
  have hshallow : record.depth < depthLimit := Nat.lt_succ_of_le hdepth
  have hdecode := Record.decode_encode hsound.infos hid
  rw [if_pos hshallow] at hdecode
  rw [RecordStore.get, htext]
  dsimp only
  rw [hdecode]
  rfl

theorem updated_updated (service : Service) {other : Record} (hid : record.id = other.id) :
    (service.updated record).1.updated other = service.updated other := by
  have hrecords : (service.records.write record).write other = service.records.write other := by
    rw [RecordStore.write, RecordStore.write, RecordStore.write, hid]
    exact congrArg (RecordStore.mk · _) (Assoc.insert_insert_self ..)
  exact congrArg (fun records => (({ service with records } : Service), _)) hrecords

theorem updated_inj {other : Record} (hrecord : record.Sound) (hother : other.Sound) (hid : record.id = other.id)
    (hinserted : record.inserted = other.inserted) : service.updated record = service.updated other ↔ record = other := by
  refine ⟨fun hsame => ?_, congrArg _⟩
  have hresponse : (service.updated record).2.body = (service.updated other).2.body := congrArg (·.2.body) hsame
  exact Record.eq_of_contact_eq hrecord hother hid hinserted (Http.Body.json.inj hresponse)

/-! ### Two updates -/

theorem admits_extend_withFloats {f : Number.Binary64 → Number.Binary64} {infos : Members} (hchanges : changes.keys.Nodup) :
    service.Admits (Assoc.extend (withFloatsInMembers f infos) changes) ↔ service.Admits (infos.extend changes) := by
  simp only [Admits, Schema.check_extend_withFloats _ hchanges]

/-- The doubles in the members that are not changed are read back as themselves. -/
def KeepsDoubles (infos changes : Members) : Prop :=
  ∀ member ∈ infos, member.1 ∉ changes.keys → ∀ x ∈ member.2.floats, Json.Reprints x

instance (infos changes : Members) : Decidable (KeepsDoubles infos changes) :=
  inferInstanceAs (Decidable (∀ member ∈ infos, member.1 ∉ changes.keys → ∀ x ∈ member.2.floats, Json.Reprints x))

theorem merged_merged (hsound : record.Sound) (hchanges : changes.keys.Nodup) (hothers : others.keys.Nodup) :
    (record.merged changes).merged others = record.merged (changes.extend others) :=
  congrArg (fun infos => { record with infos }) (Assoc.extend_extend hsound.infos.nodup_keys hchanges hothers)

theorem merged_readBack_merged_iff (hsound : record.Sound) (hchanges : changes.keys.Nodup) (hothers : others.keys.Nodup) :
    (record.merged changes).readBack.merged others = record.merged (changes.extend others) ↔
      KeepsDoubles (record.infos.extend changes) others := by
  have hinfos : (record.merged changes).readBack.merged others = (record.merged changes).merged others ↔
      Assoc.extend (withFloatsInMembers reread (record.infos.extend changes)) others =
        (record.infos.extend changes).extend others :=
    ⟨congrArg Record.infos, congrArg fun infos => { record with infos }⟩
  have hnodup := Assoc.nodup_keys_extend hsound.infos.nodup_keys changes
  rw [← merged_merged hsound hchanges hothers, hinfos, extend_withFloats_eq_iff hnodup hothers]
  simp only [KeepsDoubles, Json.reread_eq_self_iff]

theorem Updates.answer_again (hsecond : reached.Updates id second others) (hsound : (record.merged changes).Sound)
    (hid : record.id = id) (hbound : id < unsignedBound) (hdepth : (record.merged changes).depth ≤ 126) (hne : others ≠ [])
    (hadmits : reached.Admits ((record.infos.extend changes).extend others)) :
    (reached.updated (record.merged changes)).1.answer occasion second =
      reached.updated ((record.merged changes).readBack.merged others) := by
  subst hid
  have hget := get_updated reached hsound hbound hdepth
  have hagain : (reached.updated (record.merged changes)).1.Admits
      (Assoc.extend (withFloatsInMembers reread (record.infos.extend changes)) others) :=
    (admits_extend_withFloats hsecond.nodup).2 hadmits
  rw [(hsecond.later _).answer_of_admits hget hne hagain]
  exact updated_updated reached rfl

/-- The second update is accepted, and comes to what is made of the merged changes exactly if it keeps the doubles. -/
theorem Updates.answer_again_iff (hfirst : reached.Updates id first changes) (hsecond : reached.Updates id second others)
    (hsound : record.Sound) (hid : record.id = id) (hbound : id < unsignedBound) (hdepth : record.depth ≤ 126)
    (hne : changes ≠ []) (hneOthers : others ≠ [])
    (hadmits : reached.Admits ((record.infos.extend changes).extend others)) (later : Occasion) :
    ((reached.updated (record.merged changes)).1.answer later second).2.status = 200 ∧
      ((reached.updated (record.merged changes)).1.answer later second =
          reached.updated (record.merged (changes.extend others)) ↔
        KeepsDoubles (record.infos.extend changes) others) := by
  have hmerged := hfirst.sound_merged hne hsound
  have hshallow := hfirst.depth_merged hdepth
  have hwhole : (record.merged (changes.extend others)).Sound := by
    rw [← merged_merged hsound hfirst.nodup hsecond.nodup]
    exact hsecond.sound_merged hneOthers hmerged
  have htwice := hsecond.sound_merged hneOthers (Record.sound_readBack hmerged)
  rw [hsecond.answer_again hmerged hid hbound hshallow hneOthers hadmits, updated_inj htwice hwhole rfl rfl]
  exact ⟨rfl, merged_readBack_merged_iff hsound hfirst.nodup hsecond.nodup⟩

/-- Repeated and merged updates come to the same exactly if the doubles that they leave alone are read as themselves. -/
theorem updates_compose_iff (reached : Service) (hreached : reached.Reached) (id : Nat) (record : Record)
    (hrecord : reached.records.get id = .ok (some record)) (first : Request) (changes : Members)
    (hfirst : reached.Updates id first changes) (occasion : Occasion)
    (haccepted : (reached.answer occasion first).2.status = 200) :
    (∀ again : Occasion, ((reached.answer occasion first).1.answer again first).2.status = 200 ∧
      ((reached.answer occasion first).1.answer again first = reached.answer occasion first ↔
        KeepsDoubles (record.infos.extend changes) changes)) ∧
    ∀ (later : Occasion) (second : Request) (others : Members), reached.Updates id second others →
      ((reached.answer occasion first).1.answer later second).2.status = 200 →
      ∀ (once : Occasion) (whole : Request), reached.Puts id whole (.obj (changes.extend others)) →
        (reached.answer once whole).2.status = 200 ∧
        (reached.answer once whole = (reached.answer occasion first).1.answer later second ↔
          KeepsDoubles (record.infos.extend changes) others) := by
  obtain ⟨hid, hbound, hsound, hdepth⟩ := hreached.of_get hrecord
  obtain ⟨hne, found, hfound, hadmits⟩ := hfirst.exists_of_status haccepted
  obtain rfl := Option.some.inj (Except.ok.inj (hrecord.symm.trans hfound))
  have hnodup := hsound.infos.nodup_keys
  rw [hfirst.answer_of_admits hrecord hne hadmits]
  constructor
  · -- the update merged into itself is the update
    intro again
    have hagain : reached.Admits ((record.infos.extend changes).extend changes) := by
      rw [Assoc.extend_extend_self hnodup hfirst.nodup]
      exact hadmits
    have hboth := hfirst.answer_again_iff hfirst hsound hid hbound hdepth hne hne hagain again
    rw [Assoc.extend_self hfirst.nodup] at hboth
    exact hboth
  · intro later second others hsecond hlater once whole hwhole
    obtain ⟨hneOthers, read, hread, hadmitsLater⟩ := (hsecond.later (record.merged changes)).exists_of_status hlater
    have hget := get_updated reached (hfirst.sound_merged hne hsound) (hid ▸ hbound) (hfirst.depth_merged hdepth)
    obtain rfl := Option.some.inj (Except.ok.inj (hget.symm.trans (hid ▸ hread)))
    have hagain : reached.Admits ((record.infos.extend changes).extend others) :=
      (admits_extend_withFloats hsecond.nodup).1 hadmitsLater
    have hadmitsWhole : reached.Admits (record.infos.extend (changes.extend others)) := by
      rw [← Assoc.extend_extend hnodup hfirst.nodup hsecond.nodup]
      exact hagain
    obtain ⟨-, hboth⟩ := hfirst.answer_again_iff hsecond hsound hid hbound hdepth hne hneOthers hagain later
    rw [(hfirst.extend hsecond hwhole).answer_of_admits hrecord (Assoc.extend_ne_nil hne others) hadmitsWhole]
    exact ⟨rfl, eq_comm.trans hboth⟩

/-- A contact with a double that is read back as itself, and updates of other members. -/
def halfTurn : Turn := sending .post "/contact" "\x7b\"a\":1.5,\"b\":0\x7d".toList

def halfUpdate (changes : Members) : Turn := sending .put "/contact/1" (Json.obj changes).compact.toList

theorem updates_compose_iff_half :
    (((inEmptyFolder.next halfTurn).next (halfUpdate [("b", .int 1)])).next (halfUpdate [("b", .int 1)]) =
        (inEmptyFolder.next halfTurn).next (halfUpdate [("b", .int 1)])) ∧
    (inEmptyFolder.next halfTurn).next (halfUpdate [("b", .int 1), ("c", .null)]) =
      ((inEmptyFolder.next halfTurn).next (halfUpdate [("b", .int 1)])).next (halfUpdate [("c", .null)]) := by
  have hreached : (inEmptyFolder.next halfTurn).Reached := by
    refine ⟨inEmptyFolder, [halfTurn], prepared_inEmptyFolder, ?_, rfl⟩
    exact (length_createdIds_le _ _).trans_lt (by decide)
  have hrecord : (inEmptyFolder.next halfTurn).records.get 1 = .ok (some
      { id := 1
        infos := [("a", .float { negative := false, bits := 4609434218613702656 }), ("b", .int 0)]
        inserted := "2024-01-01T00:00:00Z" }) := by
    decide +kernel
  have hputs : ∀ changes ∈ [[("b", .int 1)], [("c", .null)], [("b", .int 1), ("c", .null)]],
      (inEmptyFolder.next halfTurn).Puts 1 (halfUpdate changes).request (.obj changes) := by
    have hroute : Route.ofPath? (Http.Target.path "/contact/1") = some (.contact ['1']) := by decide +kernel
    have hid : Input.contactId ['1'] = .ok 1 := by decide +kernel
    have hjson : ∀ changes ∈ [[("b", Json.int 1)], [("c", .null)], [("b", .int 1), ("c", .null)]],
        Input.json inEmptyFolder.settings.maxUploadBytes (halfUpdate changes).request = .ok (.obj changes) := by decide +kernel
    refine fun changes hmem => ⟨rfl, ⟨_, hroute, hid⟩, ?_⟩
    rw [settings_next]
    exact hjson changes hmem
  have hfirst : (inEmptyFolder.next halfTurn).Updates 1 (halfUpdate [("b", .int 1)]).request [("b", .int 1)] :=
    ⟨hputs _ (by decide), by decide, by decide⟩
  have hsecond : (inEmptyFolder.next halfTurn).Updates 1 (halfUpdate [("c", .null)]).request [("c", .null)] :=
    ⟨hputs _ (by decide), by decide, by decide⟩
  obtain ⟨hagain, hboth⟩ := updates_compose_iff (inEmptyFolder.next halfTurn) hreached 1 _ hrecord _ _ hfirst
    (halfUpdate []).occasion (by decide +kernel)
  obtain ⟨-, hwhole⟩ := hboth (halfUpdate []).occasion _ _ hsecond (by decide +kernel) (halfUpdate []).occasion _
    (hputs _ (by decide))
  exact ⟨congrArg Prod.fst ((hagain (halfUpdate []).occasion).2.2 (by decide +kernel)),
    congrArg Prod.fst (hwhole.2 (by decide +kernel))⟩

/-- A contact with a double that is read back as another one, and two updates of another member with the same value. -/
def driftingTurns : List Turn :=
  [sending .post "/contact" "\x7b\"a\":1.3479804046322207e-13,\"b\":0\x7d".toList,
    sending .put "/contact/1" "\x7b\"b\":1\x7d".toList, sending .put "/contact/1" "\x7b\"b\":1\x7d".toList]

def driftingContact (a : Number.Binary64) (b : Int) : Json := .obj [("a", .float a), ("b", .int b), ("id", .int 1)]

/-- Every request is accepted, and the member that no update sends is the next double in each answer. -/
theorem repeated_update_drifts :
    (inEmptyFolder.history driftingTurns).map (·.response) =
      [{ status := 200, body := .json (driftingContact { negative := false, bits := 4414363935723927854 } 0) },
        { status := 200, body := .json (driftingContact { negative := false, bits := 4414363935723927855 } 1) },
        { status := 200, body := .json (driftingContact { negative := false, bits := 4414363935723927856 } 1) }] := by
  decide +kernel

end Service

end AddressBook
