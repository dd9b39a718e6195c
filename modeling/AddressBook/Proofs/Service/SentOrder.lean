import AddressBook.Proofs.Assoc.Order
import AddressBook.Proofs.Service.Listing
/-!
# The order of the members of a new contact

A new contact is answered with the members that were sent and the id that it was given, at the end. An id that was sent is
dropped first, and the last member is put in its place, so the members come in the order they were sent in only if at most
one of them came after the id. The listing has them in the order of the answer, whatever that is.
-/

namespace AddressBook

open Http (Request Response)
open Json (depthLimit reread unsignedBound withFloatsInMembers)
open Record (indexed)

/-! ### The ledger of later turns -/

theorem Ledger.mem_foldl_note {ledger : Ledger} {entry : Nat × Json} (hmem : entry ∈ ledger) {history : List Exchange}
    (hothers : ∀ exchange ∈ history, ∀ event, exchange.event? = some event → event.id ≠ entry.1) :
    entry ∈ history.foldl Ledger.note ledger := by
  induction history generalizing ledger with
  | nil => exact hmem
  | cons exchange rest ih =>
      obtain ⟨hfirst, hrest⟩ := List.forall_mem_cons.1 hothers
      refine ih ?_ hrest
      cases hevent : exchange.event? with
      | none =>
          rw [note_eq, hevent]
          exact hmem
      | some event =>
          have hne := hfirst event hevent
          rw [note_eq, hevent]
          cases event with
          | created id contact => exact List.mem_append_left _ hmem
          | updated id contact => exact Assoc.mem_insert_of_ne hmem (Ne.symm hne)
          | deleted id => exact List.mem_filter.2 ⟨hmem, decide_eq_true (Ne.symm hne)⟩

theorem Record.contact_readBack {record : Record} (hsound : record.Sound) :
    record.readBack.contact = record.contact.withFloats reread := by
  rw [contact_eq (sound_readBack hsound), contact_eq hsound, readBack, Json.withFloats_obj, List.map_append,
    Json.withFloatsInMembers_eq_map]
  rfl

namespace Service

variable {service : Service} {ledger : Ledger} {known stored : List Record} {request : Request} {occasion : Occasion}

theorem history_append (service : Service) (earlier later : List Turn) :
    service.history (earlier ++ later) = service.history earlier ++ (service.after earlier).history later := by
  induction earlier generalizing service with
  | nil => rfl
  | cons turn rest ih => exact congrArg (service.exchange turn :: ·) (ih (service.next turn))

/-! ### Listing -/

theorem answer_contacts_of_shallow (hmirrors : Mirrors ledger service.records known stored)
    (hnext : service.records.nextId ≤ unsignedBound) (hmethod : request.method = .get)
    (hroute : Route.ofPath? (Http.Target.path request.target) = some .contacts)
    (hshallow : ∀ entry ∈ ledger, entry.2.depth ≤ 126) : (service.answer occasion request).2 =
      { status := 200, body := .json (.arr (ledger.map fun entry => entry.2.withFloats reread)) } := by
  have hdepth := hmirrors.depth_le_iff.1 hshallow
  have hlisted : known.map (fun record => record.readBack.contact) = ledger.map fun entry => entry.2.withFloats reread := by
    rw [hmirrors.entries, indexed, List.map_map]
    exact List.map_congr_left fun record hmem => Record.contact_readBack (hmirrors.orderly.sound record hmem)
  rw [answer_of_get hmethod hroute, get, contacts_eq hmirrors hnext, hmirrors.stored_eq hdepth, if_pos hdepth, hlisted]
  rfl

/-- If as many contacts are listed as the ledger has, then none of them is deep. -/
theorem shallow_of_answer_contacts (hmirrors : Mirrors ledger service.records known stored)
    (hnext : service.records.nextId ≤ unsignedBound) (hmethod : request.method = .get)
    (hroute : Route.ofPath? (Http.Target.path request.target) = some .contacts) {contacts : List Json}
    (hanswer : (service.answer occasion request).2 = { status := 200, body := .json (.arr contacts) })
    (hlength : contacts.length = ledger.length) : ∀ entry ∈ ledger, entry.2.depth ≤ 126 := by
  rw [answer_of_get hmethod hroute, get, contacts_eq hmirrors hnext] at hanswer
  split at hanswer
  · rename_i hdepth
    obtain rfl : stored.map (fun record => record.readBack.contact) = contacts := by simpa [respond] using hanswer
    have hsame : stored = known := by
      refine hmirrors.sublist.eq_of_length ?_
      rw [List.length_map, hmirrors.entries, indexed, List.length_map] at hlength
      exact hlength
    exact hmirrors.depth_le_iff.2 (hsame ▸ hdepth)
  · simp [respond, Refusal.ofStore, Refusal.status] at hanswer

/-! ### New contacts -/

theorem answer_of_accepted (hmethod : request.method = .post)
    (hroute : Route.ofPath? (Http.Target.path request.target) = some .contacts) {members : Members}
    (hbody : Input.json service.settings.maxUploadBytes request = .ok (.obj members))
    (haccepted : (service.answer occasion request).2.status = 200) : (service.answer occasion request).2 =
      { status := 200, body := .json (.obj (members.swapErase idField ++ [(idField, .int service.records.nextId)])) } := by
  rw [answer_of_postContact hmethod hroute] at haccepted ⊢
  unfold addContact at haccepted ⊢
  cases hinfos : service.newInfos request with
  | error error =>
      rw [hinfos] at haccepted
      exact absurd haccepted error.status_ne
  | ok infos =>
      obtain ⟨hread, -⟩ := exists_of_newInfos hinfos
      obtain ⟨own, hown, rfl⟩ := Input.exists_json_of_infos hread
      obtain rfl := Json.obj.inj (Except.ok.inj (hbody.symm.trans hown))
      change respond (.ok (Record.contact { id := service.records.nextId, infos := members.swapErase idField, inserted := _ })) = _
      rw [Record.contact_eq (Input.sound_of_infos hread _ _)]
      rfl

theorem event?_of_accepted {turn : Turn} (hmethod : turn.request.method = .post)
    (hroute : Route.ofPath? (Http.Target.path turn.request.target) = some .contacts) {members : Members} {id : Nat}
    (hanswer : (service.answer turn.occasion turn.request).2 =
      { status := 200, body := .json (.obj (members ++ [(idField, .int id)])) }) (hid : idField ∉ Assoc.keys members) :
    (service.exchange turn).event? = some (.created id (.obj (members ++ [(idField, .int id)]))) := by
  have hcontact : contactId? (.obj (members ++ [(idField, .int id)])) = some id := by
    rw [contactId?, ← Assoc.insert_of_not_mem _ hid, Assoc.get?_insert_self]
    rfl
  rw [exchange, hanswer, Exchange.event?_of_status rfl hmethod hroute]
  simp [Exchange.eventAt?, Exchange.answered?, hcontact]

/-- Members are answered in the order sent exactly if at most one of them came after an id sent along. -/
theorem answered_in_sent_order_iff (service : Service) (hprepared : service.Prepared) (earlier later : List Turn) (turn : Turn)
    (hids : (createdIds (service.history (earlier ++ turn :: later))).length < unsignedBound)
    (hmethod : turn.request.method = .post)
    (hroute : Route.ofPath? (Http.Target.path turn.request.target) = some .contacts) (members : Members)
    (hbody : Input.json service.settings.maxUploadBytes turn.request = .ok (.obj members))
    (haccepted : ((service.after earlier).exchange turn).response.status = 200)
    (huntouched : ∀ exchange ∈ ((service.after earlier).next turn).history later, ∀ event,
      exchange.event? = some event → event.id ≠ (service.after earlier).records.nextId) :
    ∃ answered : Members,
      ((service.after earlier).exchange turn).response =
        { status := 200
          body := .json (.obj (answered ++ [(idField, .int (service.after earlier).records.nextId)])) } ∧
      answered.Perm (members.erase idField) ∧
      (answered = members.erase idField ↔ (members.fromKey idField).length ≤ 2) ∧
      ∀ (occasion : Occasion) (request : Request), request.method = .get →
        Route.ofPath? (Http.Target.path request.target) = some .contacts →
        ((∃ contacts, ((service.after (earlier ++ turn :: later)).answer occasion request).2 =
            { status := 200, body := .json (.arr contacts) } ∧
          contacts.length = (Ledger.ofHistory (service.history (earlier ++ turn :: later))).length ∧
          .obj (withFloatsInMembers reread answered ++ [(idField, .int (service.after earlier).records.nextId)]) ∈ contacts) ↔
        ∀ entry ∈ Ledger.ofHistory (service.history (earlier ++ turn :: later)), entry.2.depth ≤ 126) := by
  obtain ⟨hnext, known, stored, hmirrors⟩ := exists_mirrors_of_prepared hprepared hids
  rw [← settings_after service earlier] at hbody
  have hanswer := answer_of_accepted hmethod hroute hbody haccepted
  have hnodup := Input.nodup_of_json hbody
  have hevent := event?_of_accepted hmethod hroute hanswer (Assoc.not_mem_keys_swapErase hnodup idField)
  refine ⟨members.swapErase idField, hanswer, Assoc.swapErase_perm_erase hnodup idField,
    Assoc.swapErase_eq_erase_iff hnodup idField, fun occasion request hget hcontacts => ?_⟩
  generalize (service.after earlier).records.nextId = id at hevent huntouched ⊢
  generalize hledger : Ledger.ofHistory (service.history (earlier ++ turn :: later)) = ledger at hmirrors ⊢
  have hmem : (id, Json.obj (members.swapErase idField ++ [(idField, .int id)])) ∈ ledger := by
    rw [← hledger, history_append, Ledger.ofHistory, List.foldl_append, history, List.foldl_cons]
    refine Ledger.mem_foldl_note ?_ huntouched
    rw [Ledger.note_eq, hevent]
    exact List.mem_append_right _ List.mem_cons_self
  constructor
  · rintro ⟨contacts, hlists, hlength, -⟩
    exact shallow_of_answer_contacts hmirrors hnext hget hcontacts hlists hlength
  · intro hshallow
    refine ⟨_, answer_contacts_of_shallow hmirrors hnext hget hcontacts hshallow, List.length_map _, ?_⟩
    refine List.mem_map.2 ⟨_, hmem, ?_⟩
    rw [Json.withFloats_obj, List.map_append, Json.withFloatsInMembers_eq_map]
    rfl

/-- A contact that is sent with an id and, after it, three more members. -/
def idFirstMembers : Members := [("id", .int 9), ("a", .int 1), ("b", .int 2), ("c", .int 3)]

def idFirstTurn : Turn := sending .post "/contact" "\x7b\"id\":9,\"a\":1,\"b\":2,\"c\":3\x7d".toList

theorem answered_in_sent_order_iff_idFirst : ∃ answered : Members,
    (inEmptyFolder.exchange idFirstTurn).response =
      { status := 200, body := .json (.obj (answered ++ [(idField, .int 1)])) } ∧
    answered.Perm (idFirstMembers.erase idField) ∧ answered ≠ idFirstMembers.erase idField := by
  have hids : (createdIds (inEmptyFolder.history ([] ++ [idFirstTurn]))).length < unsignedBound :=
    (length_createdIds_le _ _).trans_lt (by decide)
  obtain ⟨answered, hanswer, hperm, hiff, -⟩ :=
    answered_in_sent_order_iff inEmptyFolder prepared_inEmptyFolder [] [] idFirstTurn hids rfl (by decide +kernel)
      idFirstMembers (by decide +kernel) (by decide +kernel) nofun
  exact ⟨answered, hanswer, hperm, mt hiff.1 (by decide)⟩

theorem idFirst_answered_out_of_order :
    Input.json inEmptyFolder.settings.maxUploadBytes idFirstTurn.request = .ok (.obj idFirstMembers) ∧
    (inEmptyFolder.exchange idFirstTurn).response =
      { status := 200, body := .json (.obj [("c", .int 3), ("a", .int 1), ("b", .int 2), ("id", .int 1)]) } ∧
    ((inEmptyFolder.next idFirstTurn).answer idFirstTurn.occasion { method := .get, target := "/contact" }).2 =
      { status := 200
        body := .json (.arr [.obj [("c", .int 3), ("a", .int 1), ("b", .int 2), ("id", .int 1)]]) } ∧
    (inEmptyFolder.exchange idFirstTurn).response ≠
      { status := 200, body := .json (.obj (idFirstMembers.erase idField ++ [(idField, .int 1)])) } := by
  decide +kernel

end Service

end AddressBook
