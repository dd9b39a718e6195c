import AddressBook.Proofs.Service.Ledger
import Mathlib.Data.List.Perm.Subperm
/-!
# The listing of the contacts

The contacts are listed by reading every stored record back. The listing agrees with the ledger of a client exactly if no
contact of the ledger nests more than 126 deep: a body may nest one level deeper and is accepted, but the record around it
is then never read back, and no contact is listed as long as it is stored. With such bodies left out, a listing is the
ledger itself, unless a double is read back as another one.
-/

namespace AddressBook

open Http (Request Response)
open Json (depthLimit unsignedBound reread)
open Record (indexed)

/-! ### Listing records -/

section Mirrors

variable {ledger : Ledger} {store : RecordStore} {known stored : List Record}

theorem Mirrors.depth_le_iff (hmirrors : Mirrors ledger store known stored) :
    (∀ entry ∈ ledger, entry.2.depth ≤ 126) ↔ ∀ record ∈ known, record.depth < depthLimit := by
  rw [hmirrors.entries, indexed, List.forall_mem_map]
  refine forall₂_congr fun record hmem => ?_
  rw [Record.depth_contact (hmirrors.orderly.sound record hmem)]
  exact Nat.lt_succ_iff.symm

/-- Nothing is lost as long as no record nests too deep. -/
theorem Mirrors.stored_eq (hmirrors : Mirrors ledger store known stored)
    (hshallow : ∀ record ∈ known, record.depth < depthLimit) : stored = known := by
  have hsubset : known ⊆ stored := fun record hmem =>
    (hmirrors.lost record hmem).resolve_right (Nat.not_le_of_lt (hshallow record hmem))
  have hnodup : known.Nodup := List.Nodup.of_map _ hmirrors.orderly.nodup
  have hlength := (List.subperm_of_subset hnodup hsubset).length_le
  exact hmirrors.sublist.eq_of_length_le hlength

end Mirrors

namespace Service

variable {service : Service} {ledger : Ledger} {known stored : List Record} {request : Request}

theorem records_of_prepared (hprepared : service.Prepared) : service.records = {} := by
  obtain ⟨files, hprepare⟩ := hprepared
  unfold prepare at hprepare
  simp only [Except.then_eq_ok_iff, Except.pure_eq_ok_iff] at hprepare
  obtain ⟨-, -, -, hsame⟩ := hprepare
  rw [← hsame]

theorem mirrors_of_prepared (hprepared : service.Prepared) {turns : List Turn}
    (hids : (createdIds (service.history turns)).length < unsignedBound) {P : Record → Prop}
    (harises : ∀ exchange ∈ service.history turns, ∀ known record, (∀ other ∈ known, P other) →
      Arises service.settings.maxUploadBytes exchange.request known exchange.event? record → P record) :
    ∃ known stored, Mirrors (Ledger.ofHistory (service.history turns)) (service.after turns).records known stored ∧
      ∀ record ∈ known, P record := by
  have hrecords := records_of_prepared hprepared
  refine mirrors_after turns (hrecords ▸ mirrors_empty) (by simp) ?_ harises
  rw [hrecords]
  change 1 + _ ≤ unsignedBound
  omega

theorem nextId_le_of_prepared (hprepared : service.Prepared) {turns : List Turn}
    (hids : (createdIds (service.history turns)).length < unsignedBound) :
    (service.after turns).records.nextId ≤ unsignedBound := by
  rw [nextId_after, records_of_prepared hprepared]
  change 1 + _ ≤ unsignedBound
  omega

theorem exists_mirrors_of_prepared (hprepared : service.Prepared) {turns : List Turn}
    (hids : (createdIds (service.history turns)).length < unsignedBound) :
    (service.after turns).records.nextId ≤ unsignedBound ∧
      ∃ known stored, Mirrors (Ledger.ofHistory (service.history turns)) (service.after turns).records known stored := by
  obtain ⟨known, stored, hmirrors, -⟩ :=
    mirrors_of_prepared (P := fun _ => True) hprepared hids fun _ _ _ _ _ _ => trivial
  exact ⟨nextId_le_of_prepared hprepared hids, known, stored, hmirrors⟩

/-! ### Requests for the listing -/

theorem contacts_eq (hmirrors : Mirrors ledger service.records known stored)
    (hnext : service.records.nextId ≤ unsignedBound) :
    service.contacts = if ∀ record ∈ stored, record.depth < depthLimit then
      .ok (.arr (stored.map fun record => record.readBack.contact)) else .error (Refusal.ofStore .serialization) := by
  rw [contacts, hmirrors.holds.list_eq hnext]
  split_ifs
  · dsimp only
    rw [List.map_map]
    rfl
  · rfl

/-- The contacts of the ledger are listed exactly if none of them nests more than 126 deep. -/
theorem lists_ledger_iff_shallow (service : Service) (hprepared : service.Prepared) (turns : List Turn)
    (hids : (createdIds (service.history turns)).length < unsignedBound) (occasion : Occasion) (request : Request)
    (hmethod : request.method = .get)
    (hroute : Route.ofPath? (Http.Target.path request.target) = some .contacts) :
    (∃ contacts, ((service.after turns).answer occasion request).2 = { status := 200, body := .json (.arr contacts) } ∧
      contacts.map contactId? = (Ledger.ofHistory (service.history turns)).keys.map some) ↔
    ∀ entry ∈ Ledger.ofHistory (service.history turns), entry.2.depth ≤ 126 := by
  obtain ⟨hnext, known, stored, hmirrors⟩ := exists_mirrors_of_prepared hprepared hids
  have hlistedIds : (stored.map fun record => record.readBack.contact).map contactId? =
      (stored.map Record.id).map some := by
    rw [List.map_map, List.map_map]
    exact List.map_congr_left fun record _ => contactId?_contact record.readBack
  rw [answer_of_get hmethod hroute, get, contacts_eq hmirrors hnext, hmirrors.depth_le_iff, hmirrors.entries,
    Record.keys_indexed]
  constructor
  · rintro ⟨contacts, hanswer, hlisted⟩
    by_cases hshallow : ∀ record ∈ stored, record.depth < depthLimit
    · rw [if_pos hshallow] at hanswer
      obtain rfl : stored.map (fun record => record.readBack.contact) = contacts := by
        simpa [respond] using hanswer
      rw [hlistedIds] at hlisted
      have hsame : stored = known := by
        refine hmirrors.sublist.eq_of_length ?_
        simpa using congrArg List.length hlisted
      rw [← hsame]
      exact hshallow
    · rw [if_neg hshallow] at hanswer
      simp [respond, Refusal.ofStore, Refusal.status] at hanswer
  · intro hshallow
    have hsame := hmirrors.stored_eq hshallow
    rw [if_pos (hsame ▸ hshallow)]
    exact ⟨_, rfl, by rw [hlistedIds, hsame]⟩

/-- A contact with a name for a value that nests as deep as a body may. -/
def deepContact : List Char :=
  "\x7b\"name\":".toList ++ (List.replicate 126 '[' ++ (List.replicate 126 ']' ++ ['\x7d']))

def deepTurn : Turn := sending .post "/contact" deepContact

theorem lists_ledger_iff_shallow_inEmptyFolder :
    (∃ contacts, ((inEmptyFolder.after [deepTurn]).answer deepTurn.occasion
        { method := .get, target := "/contact" }).2 = { status := 200, body := .json (.arr contacts) } ∧
      contacts.map contactId? = (Ledger.ofHistory (inEmptyFolder.history [deepTurn])).keys.map some) ↔
    ∀ entry ∈ Ledger.ofHistory (inEmptyFolder.history [deepTurn]), entry.2.depth ≤ 126 :=
  lists_ledger_iff_shallow inEmptyFolder prepared_inEmptyFolder [deepTurn]
    ((length_createdIds_le _ _).trans_lt (by decide)) _ _ rfl (by decide +kernel)

/-- No contact is listed after a request for one that nests too deep has been answered with success. -/
theorem contacts_of_deep (hmirrors : Mirrors ledger service.records known stored) {turn : Turn}
    (hnext : (service.next turn).records.nextId ≤ unsignedBound) {contact : Json}
    (hevent : (service.exchange turn).event?.bind ContactEvent.contact? = some contact)
    (hdeep : 126 < contact.depth) : (service.next turn).contacts = .error (Refusal.ofStore .serialization) := by
  have hstep := recordStep_next service turn
  have hbefore : service.records.nextId ≤ unsignedBound := by
    rcases createdId_of_recordStep hstep with ⟨-, hsame⟩ | ⟨-, hsame⟩ <;> omega
  have hholds : ∀ {ledger known stored record}, Mirrors ledger (service.next turn).records known stored →
      record ∈ stored → record.contact = contact →
      (service.next turn).contacts = .error (Refusal.ofStore .serialization) := by
    intro ledger known stored record hmirrors hmem hcontact
    have hdepth : ¬ record.depth < depthLimit := by
      rw [← Record.depth_contact (hmirrors.holds.sound record hmem), hcontact]
      exact Nat.not_lt.2 hdeep
    rw [contacts_eq hmirrors hnext, if_neg fun hall => hdepth (hall record hmem)]
  generalize (service.exchange turn).event? = event? at hstep hevent
  generalize (service.next turn).records = store' at hstep hholds
  cases hstep with
  | none => nomatch hevent
  | created now hinfos =>
      refine hholds (hmirrors.created now hinfos) (List.mem_append_right _ (List.mem_singleton_self _)) ?_
      exact Option.some.inj hevent
  | updated hrecord hchanges =>
      obtain ⟨old, hold, rfl, -, rfl⟩ := hmirrors.holds.exists_of_get hbefore hrecord
      have hsound := sound_extend (Record.sound_readBack (hmirrors.holds.sound old hold)) hchanges
      refine hholds (hmirrors.updated hold rfl hsound) (List.mem_map.2 ⟨old, hold, if_pos rfl⟩) ?_
      exact Option.some.inj hevent
  | deleted => nomatch hevent
  | lost => nomatch hevent

theorem listing_fails_inEmptyFolder :
    inEmptyFolder.Prepared ∧
      (inEmptyFolder.history [deepTurn]).map (·.response.status) = [200] ∧
      ((inEmptyFolder.after [deepTurn]).answer deepTurn.occasion
        { method := .get, target := "/contact" }).2.status = 500 := by
  refine ⟨prepared_inEmptyFolder, by decide +kernel, ?_⟩
  have hdepth : ((inEmptyFolder.exchange deepTurn).event?.bind ContactEvent.contact?).map Json.depth =
      some 127 := by decide +kernel
  obtain ⟨contact, hevent, hdeep⟩ := Option.map_eq_some_iff.1 hdepth
  have hnext : (inEmptyFolder.next deepTurn).records.nextId ≤ unsignedBound := by decide +kernel
  have hcontacts := contacts_of_deep mirrors_empty hnext hevent (by omega)
  have hroute : Route.ofPath? (Http.Target.path "/contact") = some .contacts := by decide +kernel
  rw [answer_of_get rfl hroute, get]
  change (respond (inEmptyFolder.next deepTurn).contacts).status = 500
  rw [hcontacts]
  rfl

end Service

/-! ### Listings that are the ledger itself -/

theorem members_of_acceptedBody {limit : Nat} {exchange : Exchange} {event : ContactEvent} {contact : Json}
    (hevent : exchange.event? = some event) (hcontact : event.contact? = some contact)
    (hbodies : ∀ body ∈ exchange.acceptedBody? limit, body.depth ≤ 126 ∧ ∀ x ∈ body.floats, Json.Reprints x)
    {infos : Members} (hinfos : Input.infos limit exchange.request = .ok infos) :
    ∀ member ∈ infos, member.2.depth < 126 ∧ ∀ x ∈ member.2.floats, Json.Reprints x := by
  obtain ⟨members, hjson, rfl⟩ := Input.exists_json_of_infos hinfos
  have haccepted : exchange.acceptedBody? limit = some (.obj members) := by
    simp [Exchange.acceptedBody?, hevent, hcontact, hjson, Except.toOption]
  obtain ⟨hdepth, hfloats⟩ := hbodies (.obj members) haccepted
  intro member hmem
  have hmember := Assoc.mem_swapErase hmem
  refine ⟨?_, fun x hx => hfloats x (Json.mem_floatsOfMembers.2 ⟨member, hmember, hx⟩)⟩
  exact Nat.lt_succ_of_le (Json.depth_obj_le_iff.1 hdepth member hmember)

theorem Arises.exact {limit : Nat} {exchange : Exchange} {known : List Record} {record : Record}
    (hbodies : ∀ body ∈ exchange.acceptedBody? limit, body.depth ≤ 126 ∧ ∀ x ∈ body.floats, Json.Reprints x)
    (hknown : ∀ other ∈ known, other.Exact)
    (harises : Arises limit exchange.request known exchange.event? record) : record.Exact := by
  generalize hevent : exchange.event? = event? at harises
  cases harises with
  | sent newId inserted hinfos =>
      exact Record.exact_of_forall_mem (members_of_acceptedBody hevent rfl hbodies hinfos)
  | @merged id contact changes old hrecord hchanges =>
      have hold := hknown old hrecord
      rw [Record.readBack_eq_self hold]
      refine Record.exact_of_forall_mem fun member hmem => ?_
      rcases Assoc.mem_extend hmem with hmem | hmem
      · exact members_of_acceptedBody hevent rfl hbodies hchanges member hmem
      · exact hold.forall_mem member hmem

namespace Service

theorem exists_exchange_of_mem_history {service : Service} {turns : List Turn} {exchange : Exchange}
    (hmem : exchange ∈ service.history turns) : ∃ (reached : Service) (turn : Turn), exchange = reached.exchange turn := by
  induction turns generalizing service with
  | nil => nomatch hmem
  | cons turn rest ih =>
      rcases List.mem_cons.1 hmem with heq | hmem
      · exact ⟨service, turn, heq⟩
      · exact ih hmem

theorem event?_isSome_of_mem_history {service : Service} {turns : List Turn} {exchange : Exchange}
    (hmem : exchange ∈ service.history turns) (hstatus : exchange.response.status = 200) {route : Route}
    (hroute : exchange.route? = some route) (hchanges : Exchange.ChangesContacts exchange.request.method route) :
    exchange.event?.isSome := by
  obtain ⟨reached, turn, rfl⟩ := exists_exchange_of_mem_history hmem
  exact (effect_answer reached turn.occasion turn.request).told hstatus route hroute hchanges

/-- With bodies at most 126 deep whose doubles reprint, the ledger is listed; its ids were given out, and none comes back. -/
theorem listing_eq_ledger (service : Service) (hprepared : service.Prepared) (turns : List Turn)
    (hids : (createdIds (service.history turns)).length < unsignedBound)
    (hbodies : ∀ exchange ∈ service.history turns,
      ∀ body ∈ exchange.acceptedBody? service.settings.maxUploadBytes,
        body.depth ≤ 126 ∧ ∀ x ∈ body.floats, Json.Reprints x) :
    (∀ exchange ∈ service.history turns, exchange.response.status = 200 →
      ∀ route, exchange.route? = some route → Exchange.ChangesContacts exchange.request.method route →
        exchange.event?.isSome) ∧
    (∀ (occasion : Occasion) (request : Request), request.method = .get →
      Route.ofPath? (Http.Target.path request.target) = some .contacts →
      ((service.after turns).answer occasion request).2 =
        { status := 200, body := .json (.arr ((Ledger.ofHistory (service.history turns)).map Prod.snd)) }) ∧
    (Ledger.ofHistory (service.history turns)).keys.Pairwise (· < ·) ∧
    (∀ id ∈ (Ledger.ofHistory (service.history turns)).keys, id ∈ createdIds (service.history turns)) ∧
    (∀ entry ∈ Ledger.ofHistory (service.history turns), contactId? entry.2 = some entry.1) ∧
    (createdIds (service.history turns)).Pairwise (· < ·) ∧
    (service.history turns).Pairwise fun exchange later => ∀ id, exchange.event? = some (.deleted id) →
      ∀ event, later.event? = some event → event.id ≠ id := by
  obtain ⟨known, stored, hmirrors, hexact⟩ := mirrors_of_prepared (P := Record.Exact) hprepared hids
    fun exchange hmem known record hknown harises => harises.exact (hbodies exchange hmem) hknown
  have hnext := nextId_le_of_prepared hprepared hids
  have hshallow : ∀ record ∈ known, record.depth < depthLimit := fun record hmem => (hexact record hmem).depth_lt
  have hsame := hmirrors.stored_eq hshallow
  have hcontacts : stored.map (fun record => record.readBack.contact) =
      (Ledger.ofHistory (service.history turns)).map Prod.snd := by
    rw [hmirrors.entries, Record.map_snd_indexed, hsame]
    exact List.map_congr_left fun record hmem => by rw [Record.readBack_eq_self (hexact record hmem)]
  have hbound : service.records.nextId + (createdIds (service.history turns)).length ≤ unsignedBound := by
    rw [← nextId_after]
    exact hnext
  have hempty : Mirrors [] service.records [] [] := records_of_prepared hprepared ▸ mirrors_empty
  refine ⟨?_, ?_, ?_, ?_, ?_, ?_, ?_⟩
  · intro exchange hmem hstatus route hroute hchanges
    exact event?_isSome_of_mem_history hmem hstatus hroute hchanges
  · intro occasion request hmethod hroute
    rw [answer_of_get hmethod hroute, get, contacts_eq hmirrors hnext, if_pos (hsame ▸ hshallow), hcontacts]
    rfl
  · rw [hmirrors.entries, Record.keys_indexed]
    exact List.pairwise_map.2 hmirrors.orderly.sorted
  · exact fun id hmem => (mem_createdIds_of_mem_keys turns hempty hbound hmem).resolve_left List.not_mem_nil
  · rw [hmirrors.entries, indexed, List.forall_mem_map]
    exact fun record _ => contactId?_contact record
  · rw [createdIds_history]
    exact List.pairwise_lt_range'
  · exact pairwise_history_deleted turns hempty hbound

/-- Two contacts are created, one of them is updated and the other one deleted. -/
def shortRun : List Turn :=
  [sending .post "/contact" "\x7b\"name\":\"Ada\",\"height\":1.5\x7d".toList,
    sending .post "/contact" "\x7b\"name\":null\x7d".toList,
    sending .put "/contact/1" "\x7b\"tags\":[true],\"id\":2\x7d".toList, sending .delete "/contact/2" []]

theorem listing_eq_ledger_inEmptyFolder :
    ((inEmptyFolder.after shortRun).answer deepTurn.occasion { method := .get, target := "/contact" }).2 =
      { status := 200, body := .json (.arr ((Ledger.ofHistory (inEmptyFolder.history shortRun)).map Prod.snd)) } :=
  (listing_eq_ledger inEmptyFolder prepared_inEmptyFolder shortRun
    ((length_createdIds_le _ _).trans_lt (by decide)) (by decide +kernel)).2.1 _ _ rfl (by decide +kernel)

end Service

end AddressBook
