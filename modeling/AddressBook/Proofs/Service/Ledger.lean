import AddressBook.Proofs.Service.Input
import AddressBook.Proofs.Service.Steps
/-!
# The ledger mirrors the store

The ledger of a client lists every contact that the client knows of, and the store holds them, all but those that were
lost: a record that nests too deep is removed by a request that is answered as a failure. This is an invariant of the
steps of the records, and so of every run as long as the ids fit 64 bits.
-/

namespace AddressBook

open Json (depthLimit unsignedBound)
open Http (Request)
open Record (Orderly indexed replaced)

def Ledger.noteEvent (ledger : Ledger) : Option ContactEvent → Ledger
  | some event => ledger.enter event
  | none => ledger

theorem Ledger.note_eq (ledger : Ledger) (exchange : Exchange) :
    ledger.note exchange = ledger.noteEvent exchange.event? := by
  unfold Ledger.note Ledger.noteEvent
  rfl

/-- A ledger lists known records; a store holds those of them that are not lost, and only deep records are lost. -/
structure Mirrors (ledger : Ledger) (store : RecordStore) (known stored : List Record) : Prop where
  entries : ledger = indexed Record.contact known
  orderly : Orderly store.nextId known
  holds : store.Holds stored
  sublist : stored.Sublist known
  lost : ∀ record ∈ known, record ∈ stored ∨ depthLimit ≤ record.depth

theorem Ledger.mem_keys_of_noteEvent {ledger : Ledger} {event? : Option ContactEvent} {id : Nat}
    (hmem : id ∈ (ledger.noteEvent event?).keys) : id ∈ ledger.keys ∨ ∃ event, event? = some event ∧ event.id = id := by
  obtain ⟨entry, hentry, rfl⟩ := List.mem_map.1 hmem
  match event?, hentry with
  | none, hentry => exact .inl (List.mem_map_of_mem hentry)
  | some (.created id contact), hentry =>
      rcases List.mem_append.1 hentry with hentry | hentry
      · exact .inl (List.mem_map_of_mem hentry)
      · rw [List.mem_singleton.1 hentry]
        exact .inr ⟨_, rfl, rfl⟩
  | some (.updated id contact), hentry =>
      rcases Assoc.mem_insert hentry with rfl | hentry
      · exact .inr ⟨_, rfl, rfl⟩
      · exact .inl (List.mem_map_of_mem hentry)
  | some (.deleted id), hentry => exact .inl (List.mem_map_of_mem (List.mem_of_mem_filter hentry))

/-- Where a record that a step makes known comes from: from the infos in a body, or from those merged into a known one. -/
inductive Arises (limit : Nat) (request : Request) (known : List Record) : Option ContactEvent → Record → Prop
  | sent {id : Nat} {contact : Json} {infos : Members} (newId : Nat) (inserted : String)
      (hinfos : Input.infos limit request = .ok infos) :
      Arises limit request known (some (.created id contact)) { id := newId, infos, inserted }
  | merged {id : Nat} {contact : Json} {changes : Members} {record : Record} (hrecord : record ∈ known)
      (hchanges : Input.infos limit request = .ok changes) :
      Arises limit request known (some (.updated id contact))
        { record.readBack with infos := record.readBack.infos.extend changes }

section Step

variable {limit : Nat} {request : Request} {ledger : Ledger} {store store' : RecordStore} {known stored : List Record}
  {event? : Option ContactEvent}

theorem mirrors_empty : Mirrors [] {} [] [] where
  entries := rfl
  orderly := RecordStore.holds_empty.toOrderly
  holds := RecordStore.holds_empty
  sublist := .refl _
  lost := by simp

theorem sound_extend {record : Record} (hsound : record.Sound) {changes : Members}
    (hchanges : Input.infos limit request = .ok changes) :
    Record.Sound { record with infos := record.infos.extend changes } := by
  have hnew := Input.sound_of_infos hchanges 0 ""
  cases hsound.infos with
  | obj hnodup hmembers =>
      cases hnew.infos with
      | obj hnodupNew hmembersNew =>
          refine ⟨.obj (Assoc.nodup_keys_extend hnodup changes) fun member hmem => ?_, fun hmem => ?_⟩
          · rcases Assoc.mem_extend hmem with hmem | hmem
            · exact hmembersNew member hmem
            · exact hmembers member hmem
          · obtain ⟨member, hmember, hkey⟩ := List.mem_map.1 hmem
            rcases Assoc.mem_extend hmember with hmember | hmember
            · exact hnew.noId (hkey ▸ List.mem_map_of_mem hmember)
            · exact hsound.noId (hkey ▸ List.mem_map_of_mem hmember)

theorem Mirrors.created (hmirrors : Mirrors ledger store known stored) {infos : Members} (now : String)
    (hinfos : Input.infos limit request = .ok infos) :
    Mirrors (ledger.enter (.created store.nextId (store.create infos now).2.contact)) (store.create infos now).1
      (known ++ [{ id := store.nextId, infos, inserted := now }])
      (stored ++ [{ id := store.nextId, infos, inserted := now }]) := by
  have hsound := Input.sound_of_infos hinfos store.nextId now
  refine ⟨?_, hmirrors.orderly.append hsound rfl, hmirrors.holds.create now hsound,
    hmirrors.sublist.append (.refl _), ?_⟩
  · rw [Ledger.enter, hmirrors.entries, Record.indexed_append]
    rfl
  · intro record hmem
    rcases List.mem_append.1 hmem with hmem | hmem
    · exact (hmirrors.lost record hmem).imp_left (List.mem_append_left _)
    · exact .inl (List.mem_append_right _ hmem)

theorem Mirrors.updated (hmirrors : Mirrors ledger store known stored) {old updated : Record} (hold : old ∈ stored)
    (hid : updated.id = old.id) (hsound : updated.Sound) :
    Mirrors (ledger.enter (.updated old.id updated.contact)) (store.write updated) (replaced updated known)
      (replaced updated stored) := by
  have hknown : old ∈ known := hmirrors.sublist.subset hold
  have hmemIds : ∀ {records : List Record}, old ∈ records → updated.id ∈ records.map Record.id := fun hmem =>
    hid ▸ List.mem_map_of_mem hmem
  refine ⟨?_, hmirrors.orderly.replaced hsound, hmirrors.holds.write hsound (hmemIds hold),
    hmirrors.sublist.map _, ?_⟩
  · rw [Ledger.enter, hmirrors.entries, ← hid]
    exact Record.insert_indexed hmirrors.orderly.nodup (hmemIds hknown)
  · intro record hmem
    obtain ⟨before, hbefore, rfl⟩ := List.mem_map.1 hmem
    by_cases hsame : before.id = updated.id
    · have hstored : before ∈ stored := hmirrors.orderly.eq_of_id_eq hbefore hknown (hsame.trans hid) ▸ hold
      exact .inl (Record.mem_replaced_of_mem hstored)
    · refine (hmirrors.lost before hbefore).imp Record.mem_replaced_of_mem fun hdeep => ?_
      rw [if_neg hsame]
      exact hdeep

theorem Mirrors.deleted (hmirrors : Mirrors ledger store known stored) (id : Nat) :
    Mirrors (ledger.enter (.deleted id)) { store with entries := store.entries.erase id }
      (known.filter (·.id ≠ id)) (stored.filter (·.id ≠ id)) := by
  refine ⟨?_, hmirrors.orderly.filter _, hmirrors.holds.erase id, hmirrors.sublist.filter _, ?_⟩
  · rw [Ledger.enter, hmirrors.entries, Record.erase_indexed]
  · intro record hmem
    obtain ⟨hmem, hne⟩ := List.mem_filter.1 hmem
    exact (hmirrors.lost record hmem).imp_left fun hstored => List.mem_filter.2 ⟨hstored, hne⟩

/-- A record that nests too deep may go missing from the store, and the ledger does not tell. -/
theorem Mirrors.losing (hmirrors : Mirrors ledger store known stored) {old : Record} (hold : old ∈ stored)
    (hdeep : depthLimit ≤ old.depth) :
    Mirrors ledger { store with entries := store.entries.erase old.id } known (stored.filter (·.id ≠ old.id)) := by
  refine ⟨hmirrors.entries, hmirrors.orderly, hmirrors.holds.erase old.id,
    List.filter_sublist.trans hmirrors.sublist, ?_⟩
  intro record hmem
  by_cases hsame : record.id = old.id
  · rw [hmirrors.orderly.eq_of_id_eq hmem (hmirrors.sublist.subset hold) hsame]
    exact .inr hdeep
  · exact (hmirrors.lost record hmem).imp_left fun hstored => List.mem_filter.2 ⟨hstored, decide_eq_true hsame⟩

/-- Every step keeps the ledger a mirror, and every record that is known afterwards was known before or arises from it. -/
theorem Mirrors.step (hmirrors : Mirrors ledger store known stored) (hnext : store.nextId ≤ unsignedBound)
    (hstep : RecordStep limit request store store' event?) :
    ∃ known' stored', Mirrors (ledger.noteEvent event?) store' known' stored' ∧
      ∀ record ∈ known', record ∈ known ∨ Arises limit request known event? record := by
  cases hstep with
  | none => exact ⟨known, stored, hmirrors, fun record hmem => .inl hmem⟩
  | created now hinfos =>
      refine ⟨_, _, hmirrors.created now hinfos, fun record hmem => ?_⟩
      refine (List.mem_append.1 hmem).imp_right fun hmem => ?_
      rw [List.mem_singleton.1 hmem]
      exact .sent _ _ hinfos
  | updated hrecord hchanges =>
      obtain ⟨old, hold, rfl, -, rfl⟩ := hmirrors.holds.exists_of_get hnext hrecord
      have hknown : old ∈ known := hmirrors.sublist.subset hold
      have hsound := sound_extend (Record.sound_readBack (hmirrors.orderly.sound old hknown)) hchanges
      refine ⟨_, _, hmirrors.updated hold rfl hsound, fun record hmem => ?_⟩
      rcases Record.mem_replaced hmem with rfl | ⟨hmem, -⟩
      · exact .inr (.merged hknown hchanges)
      · exact .inl hmem
  | deleted hrecord => exact ⟨_, _, hmirrors.deleted _, fun record hmem => .inl (List.mem_of_mem_filter hmem)⟩
  | lost hfault =>
      obtain ⟨old, hold, rfl, hdeep⟩ := hmirrors.holds.exists_of_get_error hnext hfault
      exact ⟨known, _, hmirrors.losing hold hdeep, fun record hmem => .inl hmem⟩

theorem Mirrors.lt_nextId (hmirrors : Mirrors ledger store known stored) {id : Nat} (hid : id ∈ ledger.keys) :
    id < store.nextId := by
  rw [hmirrors.entries, Record.keys_indexed] at hid
  obtain ⟨record, hrecord, rfl⟩ := List.mem_map.1 hid
  exact hmirrors.orderly.fresh record hrecord

/-- An answer tells of a new contact or of one in the ledger. -/
theorem Mirrors.id_of_event (hmirrors : Mirrors ledger store known stored) (hnext : store.nextId ≤ unsignedBound)
    {event : ContactEvent} (hstep : RecordStep limit request store store' (some event)) :
    event.createdId? = some event.id ∧ event.id = store.nextId ∨ event.id ∈ ledger.keys := by
  have hstored : ∀ {id : Nat} {record : Record}, store.get id = .ok (some record) → id ∈ ledger.keys := by
    intro id record hget
    obtain ⟨old, hold, rfl, -, -⟩ := hmirrors.holds.exists_of_get hnext hget
    rw [hmirrors.entries, Record.keys_indexed]
    exact List.mem_map_of_mem (hmirrors.sublist.subset hold)
  cases hstep with
  | created => exact .inl ⟨rfl, rfl⟩
  | updated hrecord => exact .inr (hstored hrecord)
  | deleted hrecord => exact .inr (hstored hrecord)

end Step

/-! ### Runs -/

theorem createdIds_cons (exchange : Exchange) (history : List Exchange) :
    createdIds (exchange :: history) =
      (exchange.event?.bind ContactEvent.createdId?).toList ++ createdIds history := by
  rw [createdIds, List.filterMap_cons]
  cases exchange.event?.bind ContactEvent.createdId? <;> rfl

theorem createdId_of_recordStep {limit : Nat} {request : Request} {store store' : RecordStore}
    {event? : Option ContactEvent} (hstep : RecordStep limit request store store' event?) :
    (event?.bind ContactEvent.createdId? = none ∧ store'.nextId = store.nextId) ∨
      (event?.bind ContactEvent.createdId? = some store.nextId ∧ store'.nextId = store.nextId + 1) := by
  cases hstep with
  | none => exact .inl ⟨rfl, rfl⟩
  | created => exact .inr ⟨rfl, rfl⟩
  | updated => exact .inl ⟨rfl, rfl⟩
  | deleted => exact .inl ⟨rfl, rfl⟩
  | lost => exact .inl ⟨rfl, rfl⟩

namespace Service

variable {service : Service} {ledger : Ledger} {known stored : List Record}

theorem after_append (service : Service) (earlier recent : List Turn) :
    service.after (earlier ++ recent) = (service.after earlier).after recent := List.foldl_append

theorem createdIds_history (service : Service) (turns : List Turn) :
    createdIds (service.history turns) =
      List.range' service.records.nextId (createdIds (service.history turns)).length := by
  induction turns generalizing service with
  | nil => rfl
  | cons turn rest ih =>
      rw [history, createdIds_cons]
      rcases createdId_of_recordStep (recordStep_next service turn) with ⟨hnone, hnext⟩ | ⟨hsome, hnext⟩
      · rw [hnone, Option.toList_none, List.nil_append, ← hnext]
        exact ih (service.next turn)
      · rw [hsome, Option.toList_some, List.singleton_append, List.length_cons, List.range'_succ, ← hnext]
        exact congrArg _ (ih (service.next turn))

theorem length_createdIds_le (service : Service) (turns : List Turn) :
    (createdIds (service.history turns)).length ≤ turns.length := by
  induction turns generalizing service with
  | nil => exact Nat.le_refl 0
  | cons turn rest ih =>
      rw [history, createdIds_cons, List.length_append, List.length_cons, Nat.add_comm]
      exact Nat.add_le_add (ih (service.next turn)) Option.length_toList_le

theorem nextId_after (service : Service) (turns : List Turn) :
    (service.after turns).records.nextId = service.records.nextId + (createdIds (service.history turns)).length := by
  induction turns generalizing service with
  | nil => rfl
  | cons turn rest ih =>
      change ((service.next turn).after rest).records.nextId = _
      rw [ih, history, createdIds_cons, List.length_append]
      rcases createdId_of_recordStep (recordStep_next service turn) with ⟨hnone, hnext⟩ | ⟨hsome, hnext⟩
      · rw [hnone, hnext, Option.toList_none, List.length_nil, Nat.zero_add]
      · rw [hsome, hnext, Option.toList_some, List.length_singleton, Nat.add_assoc]

theorem bound_next {turn : Turn} {rest : List Turn}
    (hbound : service.records.nextId + (createdIds (service.history (turn :: rest))).length ≤ unsignedBound) :
    (service.next turn).records.nextId + (createdIds ((service.next turn).history rest)).length ≤ unsignedBound := by
  have hwhole := nextId_after service (turn :: rest)
  have hrest := nextId_after (service.next turn) rest
  rw [← hrest]
  change (service.after (turn :: rest)).records.nextId ≤ unsignedBound
  omega

theorem exists_mirrors_next (hmirrors : Mirrors ledger service.records known stored)
    (hnext : service.records.nextId ≤ unsignedBound) (turn : Turn) : ∃ known' stored',
      Mirrors (ledger.note (service.exchange turn)) (service.next turn).records known' stored' := by
  obtain ⟨known', stored', hmirrors', -⟩ := hmirrors.step hnext (recordStep_next service turn)
  rw [← Ledger.note_eq] at hmirrors'
  exact ⟨known', stored', hmirrors'⟩

/-- A run keeps the ledger a mirror, and a property of the known records that no arising record breaks. -/
theorem mirrors_after {P : Record → Prop} (turns : List Turn)
    (hmirrors : Mirrors ledger service.records known stored) (hknown : ∀ record ∈ known, P record)
    (hbound : service.records.nextId + (createdIds (service.history turns)).length ≤ unsignedBound)
    (harises : ∀ exchange ∈ service.history turns, ∀ known record, (∀ other ∈ known, P other) →
      Arises service.settings.maxUploadBytes exchange.request known exchange.event? record → P record) :
    ∃ known' stored', Mirrors ((service.history turns).foldl Ledger.note ledger) (service.after turns).records
      known' stored' ∧ ∀ record ∈ known', P record := by
  induction turns generalizing service ledger known stored with
  | nil => exact ⟨known, stored, hmirrors, hknown⟩
  | cons turn rest ih =>
      have hstep := recordStep_next service turn
      obtain ⟨known', stored', hmirrors', horigin⟩ := hmirrors.step (by omega) hstep
      rw [← Ledger.note_eq] at hmirrors'
      have hknown' : ∀ record ∈ known', P record := by
        intro record hmem
        rcases horigin record hmem with hmem | hnew
        · exact hknown record hmem
        · exact harises (service.exchange turn) List.mem_cons_self known record hknown hnew
      refine ih hmirrors' hknown' (bound_next hbound) fun exchange hmem => ?_
      rw [settings_next]
      exact harises exchange (List.mem_cons_of_mem _ hmem)

theorem mem_createdIds_of_mem_keys (turns : List Turn) (hmirrors : Mirrors ledger service.records known stored)
    (hbound : service.records.nextId + (createdIds (service.history turns)).length ≤ unsignedBound) {id : Nat}
    (hmem : id ∈ ((service.history turns).foldl Ledger.note ledger).keys) :
    id ∈ ledger.keys ∨ id ∈ createdIds (service.history turns) := by
  induction turns generalizing service ledger known stored with
  | nil => exact .inl hmem
  | cons turn rest ih =>
      have hstep := recordStep_next service turn
      obtain ⟨known', stored', hmirrors'⟩ := exists_mirrors_next hmirrors (by omega) turn
      rw [history, createdIds_cons, List.mem_append]
      rcases ih hmirrors' (bound_next hbound) hmem with hmem | hcreated
      · rw [Ledger.note_eq] at hmem
        rcases Ledger.mem_keys_of_noteEvent hmem with hmem | ⟨event, hevent, rfl⟩
        · exact .inl hmem
        · rw [hevent] at hstep ⊢
          rcases hmirrors.id_of_event (by omega) hstep with ⟨hcreated, -⟩ | hknown
          · exact .inr (.inl (by simp [hcreated]))
          · exact .inl hknown
      · exact .inr (.inr hcreated)

/-! ### Ids that are gone -/

/-- No answer tells of an id again that was given out and is not in the ledger any more. -/
theorem id_ne_of_gone (turns : List Turn) (hmirrors : Mirrors ledger service.records known stored)
    (hbound : service.records.nextId + (createdIds (service.history turns)).length ≤ unsignedBound) {id : Nat}
    (hold : id < service.records.nextId) (hgone : id ∉ ledger.keys) :
    ∀ later ∈ service.history turns, ∀ event, later.event? = some event → event.id ≠ id := by
  induction turns generalizing service ledger known stored with
  | nil => exact nofun
  | cons turn rest ih =>
      have hstep := recordStep_next service turn
      obtain ⟨known', stored', hmirrors'⟩ := exists_mirrors_next hmirrors (by omega) turn
      have hfirst : ∀ event, (service.exchange turn).event? = some event → event.id ≠ id := by
        intro event hevent
        rw [hevent] at hstep
        rcases hmirrors.id_of_event (by omega) hstep with ⟨-, hnew⟩ | hknown
        · omega
        · exact fun heq => hgone (heq ▸ hknown)
      have hgone' : id ∉ (ledger.note (service.exchange turn)).keys := by
        rw [Ledger.note_eq]
        intro hmem
        rcases Ledger.mem_keys_of_noteEvent hmem with hmem | ⟨event, hevent, heq⟩
        · exact hgone hmem
        · exact hfirst event hevent heq
      have hold' : id < (service.next turn).records.nextId := by
        rcases createdId_of_recordStep hstep with ⟨-, hnext⟩ | ⟨-, hnext⟩ <;> omega
      intro later hlater
      rcases List.mem_cons.1 hlater with rfl | hlater
      · exact hfirst
      · exact ih hmirrors' (bound_next hbound) hold' hgone' later hlater

theorem pairwise_history_deleted (turns : List Turn) (hmirrors : Mirrors ledger service.records known stored)
    (hbound : service.records.nextId + (createdIds (service.history turns)).length ≤ unsignedBound) :
    (service.history turns).Pairwise fun exchange later => ∀ id, exchange.event? = some (.deleted id) →
      ∀ event, later.event? = some event → event.id ≠ id := by
  induction turns generalizing service ledger known stored with
  | nil => exact .nil
  | cons turn rest ih =>
      have hstep := recordStep_next service turn
      obtain ⟨known', stored', hmirrors'⟩ := exists_mirrors_next hmirrors (by omega) turn
      refine List.pairwise_cons.2 ⟨fun later hlater id hdeleted => ?_, ih hmirrors' (bound_next hbound)⟩
      have hgone : id ∉ (ledger.note (service.exchange turn)).keys := by
        rw [Ledger.note_eq, hdeleted, Ledger.noteEvent, Ledger.enter, Assoc.keys_erase]
        simp
      have hold : id < (service.next turn).records.nextId := by
        rw [hdeleted] at hstep
        have hknown : id ∈ ledger.keys :=
          (hmirrors.id_of_event (by omega) hstep).resolve_left fun hcreated => nomatch hcreated.1
        have hlt := hmirrors.lt_nextId hknown
        rcases createdId_of_recordStep hstep with ⟨-, hnext⟩ | ⟨-, hnext⟩ <;> omega
      exact id_ne_of_gone rest hmirrors' (bound_next hbound) hold hgone later hlater

end Service

end AddressBook
