import AddressBook.Proofs.Service.Listing
import Mathlib.Data.Fintype.Pi
/-!
# Updates of one contact side by side

An update of a contact asks the stores three times: for the contact, for the schema document, and for the merged infos to
be stored. Between these another request may have its turn. If two clients update a contact, the last of them to store its
infos has merged its changes into what it has read, so the changes of the other one are kept if it had stored them before
that. Otherwise they are lost, although both are answered with success.
-/

namespace AddressBook

open Http (Request)
open Json (reread unsignedBound withFloatsInMembers)

/-! ### An update in three steps -/

/-- How far an update of a contact has come. -/
inductive UpdateProgress where
  | asked
  | read (id : Nat) (record : Record)
  | merged (id : Nat) (infos : Members)
  | answered (result : Except Refusal Json)

namespace UpdateProgress

def contact? : UpdateProgress → Option Json
  | answered (.ok contact) => some contact
  | _ => none

/-- The update has come to its end without success. -/
def Refused (progress : UpdateProgress) : Prop := ∃ refusal, progress = .answered (.error refusal)

end UpdateProgress

namespace Service

def contactToUpdate (service : Service) (segment : List Char) : Except Refusal (Nat × Record) := do
  let id ← Input.contactId segment
  let record ← service.getContact id
  pure (id, record)

/-- The next step of an update: to the records, to the document, and to the records again. -/
def advance (service : Service) (segment : List Char) (request : Request) : UpdateProgress → Service × UpdateProgress
  | .asked =>
      match service.contactToUpdate segment with
      | .error refusal => (service, .answered (.error refusal))
      | .ok (id, record) => (service, .read id record)
  | .read id record =>
      match service.changedInfos record request with
      | .error refusal => (service, .answered (.error refusal))
      | .ok infos => (service, .merged id infos)
  | .merged id infos => ((service.storeUpdate id infos).1, .answered (service.storeUpdate id infos).2)
  | .answered result => (service, .answered result)

/-- Three steps that nothing comes between are a whole update. -/
theorem changeContact_eq_advance (service : Service) (segment : List Char) (request : Request) :
    ((service.changeContact segment request).1, .answered (service.changeContact segment request).2) =
      (fun (service, progress) => service.advance segment request progress)^[3] (service, .asked) := by
  have hupdate : service.requestedUpdate segment request =
      (service.contactToUpdate segment).bind fun (id, record) =>
        (service.changedInfos record request).map fun infos => (id, infos) := by
    rw [requestedUpdate, contactToUpdate]
    cases Input.contactId segment with
    | error refusal => rfl
    | ok id =>
        change (service.getContact id).bind (fun record => (service.changedInfos record request).bind _) =
          ((service.getContact id).bind fun record => .ok (id, record)).bind _
        cases service.getContact id with
        | error refusal => rfl
        | ok record =>
            dsimp only [Except.bind]
            cases service.changedInfos record request <;> rfl
  rw [changeContact, hupdate]
  simp only [Function.iterate_succ, Function.iterate_zero, Function.comp_apply, id_eq, advance]
  cases service.contactToUpdate segment with
  | error refusal => rfl
  | ok found =>
      dsimp only [Except.bind]
      cases service.changedInfos found.2 request <;> rfl

end Service

/-! ### Two clients -/

inductive Client where
  | first
  | second
deriving DecidableEq

namespace Client

instance : Fintype Client where
  elems := {first, second}
  complete client := by cases client <;> decide

def other : Client → Client
  | first => second
  | second => first

theorem eq_or_eq_other (client last : Client) : client = last ∨ client = last.other := by
  revert client last
  decide

theorem exists_of_counts {schedule : List Client} (hcounts : ∀ client, schedule.count client = 3) :
    ∃ a b c d e f, schedule = [a, b, c, d, e, f] := by
  have hlength : ∀ clients : List Client, clients.length = clients.count first + clients.count second := by
    intro clients
    induction clients with
    | nil => rfl
    | cons client rest ih => cases client <;> simp [ih] <;> omega
  have hsix : schedule.length = 6 := by rw [hlength, hcounts, hcounts]
  match schedule, hsix with
  | [a, b, c, d, e, f], _ => exact ⟨a, b, c, d, e, f, rfl⟩

theorem eq_append_of_counts {schedule : List Client} (hcounts : ∀ client, schedule.count client = 3) {last : Client}
    (hserial : schedule.take 3 = List.replicate 3 last.other) :
    schedule = List.replicate 3 last.other ++ List.replicate 3 last := by
  obtain ⟨a, b, c, d, e, f, rfl⟩ := exists_of_counts hcounts
  revert last a b c d e f
  decide

end Client

/-- A service and the updates that two clients have asked it for. -/
structure Race where
  service : Service
  progress : Client → UpdateProgress := fun _ => .asked

namespace Race

variable (segments : Client → List Char) (requests : Client → Request)

def advance (race : Race) (client : Client) : Race where
  service := (race.service.advance (segments client) (requests client) (race.progress client)).1
  progress := Function.update race.progress client
    (race.service.advance (segments client) (requests client) (race.progress client)).2

theorem progress_advance_self (race : Race) (client : Client) :
    (race.advance segments requests client).progress client =
      (race.service.advance (segments client) (requests client) (race.progress client)).2 := Function.update_self ..

theorem progress_advance_of_ne (race : Race) {client other : Client} (hne : other ≠ client) :
    (race.advance segments requests client).progress other = race.progress other := Function.update_of_ne hne ..

def run (race : Race) (schedule : List Client) : Race := schedule.foldl (advance segments requests) race

theorem run_append (race : Race) (earlier later : List Client) :
    race.run segments requests (earlier ++ later) = (race.run segments requests earlier).run segments requests later :=
  List.foldl_append

theorem run_alone (race : Race) {client : Client} (hasked : race.progress client = .asked) :
    race.run segments requests (List.replicate 3 client) =
      { service := (race.service.changeContact (segments client) (requests client)).1
        progress := Function.update race.progress client
          (.answered (race.service.changeContact (segments client) (requests client)).2) } := by
  have hwhole := race.service.changeContact_eq_advance (segments client) (requests client)
  have hservice := congrArg Prod.fst hwhole
  have hprogress := congrArg Prod.snd hwhole
  dsimp only at hservice hprogress
  rw [hservice, hprogress, ← hasked]
  simp only [run, List.replicate, List.foldl, advance, Function.update_self, Function.update_idem]
  rfl

end Race

/-! ### What is merged into what -/

/-- Whose changes the stored infos have taken in, the last first, and which of them each client has read. -/
structure Trace where
  written : List Client := []
  seen : Client → List Client := fun _ => []
  steps : Client → Nat := fun _ => 0

namespace Trace

def advance (trace : Trace) (client : Client) : Trace where
  written := if trace.steps client = 2 then client :: trace.seen client else trace.written
  seen := if trace.steps client = 0 then Function.update trace.seen client trace.written else trace.seen
  steps := Function.update trace.steps client (trace.steps client + 1)

theorem steps_advance_self (trace : Trace) (client : Client) :
    (trace.advance client).steps client = trace.steps client + 1 := Function.update_self ..

theorem steps_advance_of_ne (trace : Trace) {client other : Client} (hne : other ≠ client) :
    (trace.advance client).steps other = trace.steps other := Function.update_of_ne hne ..

theorem seen_advance_of_ne (trace : Trace) {client other : Client} (hne : other ≠ client) :
    (trace.advance client).seen other = trace.seen other := by
  change (if trace.steps client = 0 then Function.update trace.seen client trace.written else trace.seen) other = _
  split
  · exact Function.update_of_ne hne _ _
  · rfl

def run (trace : Trace) (schedule : List Client) : Trace := schedule.foldl advance trace

/-- The changes of the one that is not the last are among those written if it is done when the last one begins. -/
theorem written_run {schedule : List Client} (hcounts : ∀ client, schedule.count client = 3) {last : Client}
    (hlast : schedule.getLast? = some last) : (run {} schedule).written =
      if schedule.take 3 = List.replicate 3 last.other then [last, last.other] else [last] := by
  -- twenty schedules are left, and the trace of each is computed
  obtain ⟨a, b, c, d, e, f, rfl⟩ := Client.exists_of_counts hcounts
  revert last a b c d e f
  decide

end Trace

section Merging

variable {limit : Nat} {requests : Client → Request} {original : Members} {changes : Client → Members}

/-- The original infos with the changes of clients, the last first; what changes are merged into has been read back. -/
def mergedInfos (original : Members) (changes : Client → Members) : List Client → Members
  | [] => original
  | client :: earlier => Assoc.extend (withFloatsInMembers reread (mergedInfos original changes earlier)) (changes client)

theorem sound_mergedInfos {id : Nat} {inserted : String} (horiginal : Record.Sound { id, infos := original, inserted })
    (hchanges : ∀ client, Input.infos limit (requests client) = .ok (changes client)) (clients : List Client)
    (time : String) : Record.Sound { id, infos := mergedInfos original changes clients, inserted := time } := by
  induction clients with
  | nil => exact ⟨horiginal.infos, horiginal.noId⟩
  | cons client earlier ih => exact sound_extend (Record.sound_readBack ih) (hchanges client)

end Merging

/-! ### The race as it is traced -/

namespace Race

variable {start : Service} {id : Nat} {original : Members} {changes : Client → Members} {segments : Client → List Char}
  {requests : Client → Request} {race : Race} {trace : Trace} {client : Client} {schedule : List Client}

/-- How far an update has come after some steps, given whose changes its client has read. -/
inductive InStep (id : Nat) (original : Members) (changes : Client → Members) (client : Client) :
    UpdateProgress → List Client → Nat → Prop
  | asked (seen : List Client) : InStep id original changes client .asked seen 0
  | read {seen : List Client} {record : Record}
      (hinfos : record.infos = withFloatsInMembers reread (mergedInfos original changes seen)) :
      InStep id original changes client (.read id record) seen 1
  | merged (seen : List Client) :
      InStep id original changes client (.merged id (mergedInfos original changes (client :: seen))) seen 2
  | answered (contact : Json) (seen : List Client) {steps : Nat} (hsteps : 3 ≤ steps) :
      InStep id original changes client (.answered (.ok contact)) seen steps

/-- The contact is stored with the changes that have been written, and both updates are where the trace has them. -/
structure Follows (start : Service) (id : Nat) (original : Members) (changes : Client → Members) (race : Race)
    (trace : Trace) : Prop where
  settings : race.service.settings = start.settings
  stored : ∃ record : Record, record.id = id ∧ record.infos = mergedInfos original changes trace.written ∧
    race.service.records.entries.get? id = some record.encode
  inStep : ∀ client, InStep id original changes client (race.progress client) (trace.seen client) (trace.steps client)

theorem refused_run (hrefused : (race.progress client).Refused) :
    ((race.run segments requests schedule).progress client).Refused := by
  induction schedule generalizing race with
  | nil => exact hrefused
  | cons next rest ih =>
      obtain ⟨refusal, hprogress⟩ := hrefused
      have hnext : ((race.advance segments requests next).progress client).Refused := by
        refine ⟨refusal, ?_⟩
        by_cases heq : client = next
        · subst heq
          rw [progress_advance_self, hprogress]
          rfl
        · rw [progress_advance_of_ne _ _ _ heq, hprogress]
      exact ih hnext

theorem Follows.of_step (hfollows : Follows start id original changes race trace) {service : Service}
    {progress : UpdateProgress}
    (hadvance : race.service.advance (segments client) (requests client) (race.progress client) = (service, progress))
    (hsettings : service.settings = start.settings)
    (hstored : ∃ record : Record, record.id = id ∧ record.infos = mergedInfos original changes (trace.advance client).written ∧
      service.records.entries.get? id = some record.encode)
    (hown : InStep id original changes client progress ((trace.advance client).seen client) (trace.steps client + 1)) :
    Follows start id original changes (race.advance segments requests client) (trace.advance client) := by
  have hservice : (race.advance segments requests client).service = service := congrArg Prod.fst hadvance
  refine ⟨hservice ▸ hsettings, hservice ▸ hstored, fun other => ?_⟩
  by_cases hsame : other = client
  · subst hsame
    rw [progress_advance_self, hadvance, Trace.steps_advance_self]
    exact hown
  · rw [progress_advance_of_ne _ _ _ hsame, Trace.seen_advance_of_ne _ hsame, Trace.steps_advance_of_ne _ hsame]
    exact hfollows.inStep other

section Step

variable (hid : ∀ client, Input.contactId (segments client) = .ok id) (hbound : id < unsignedBound)
  (hchanges : ∀ client, Input.infos start.settings.maxUploadBytes (requests client) = .ok (changes client))
  {inserted : String} (horiginal : Record.Sound { id, infos := original, inserted })

include hbound hchanges horiginal

theorem Follows.get_eq (hfollows : Follows start id original changes race trace) :
    (∃ record : Record, record.id = id ∧
      record.infos = withFloatsInMembers reread (mergedInfos original changes trace.written) ∧
        race.service.records.get id = .ok (some record)) ∨
      race.service.records.get id = .error .serialization := by
  obtain ⟨record, rfl, hinfos, hentry⟩ := hfollows.stored
  have hsound := sound_mergedInfos horiginal hchanges trace.written record.inserted
  rw [← hinfos] at hsound
  have hdecode := Record.decode_encode hsound.infos hbound
  rw [RecordStore.get, hentry]
  dsimp only
  rw [hdecode]
  split
  · exact .inl ⟨record.readBack, rfl, congrArg _ hinfos, rfl⟩
  · exact .inr rfl

include hid

theorem Follows.advance_asked (hfollows : Follows start id original changes race trace)
    (hprogress : race.progress client = .asked) (hsteps : trace.steps client = 0) :
    Follows start id original changes (race.advance segments requests client) (trace.advance client) ∨
      ((race.advance segments requests client).progress client).Refused := by
  have hadvance : race.service.advance (segments client) (requests client) (race.progress client) =
      match (race.service.getContact id).map fun record => (id, record) with
      | .error refusal => (race.service, .answered (.error refusal))
      | .ok (id, record) => (race.service, .read id record) := by
    rw [hprogress, Service.advance, Service.contactToUpdate, hid]
    rfl
  rw [Service.getContact] at hadvance
  rcases hfollows.get_eq hbound hchanges horiginal with ⟨record, -, hinfos, hget⟩ | hget
  · rw [hget] at hadvance
    have hwritten : (trace.advance client).written = trace.written := if_neg (by omega)
    have hseen : (trace.advance client).seen client = trace.written := by
      rw [Trace.advance]
      dsimp only
      rw [if_pos hsteps, Function.update_self]
    refine .inl (hfollows.of_step hadvance hfollows.settings (hwritten ▸ hfollows.stored) ?_)
    rw [hseen, hsteps]
    exact .read hinfos
  · rw [hget] at hadvance
    rw [progress_advance_self, hadvance]
    exact .inr ⟨_, rfl⟩

omit hid in
theorem Follows.advance_merged (hfollows : Follows start id original changes race trace)
    (hprogress : race.progress client = .merged id (mergedInfos original changes (client :: trace.seen client)))
    (hsteps : trace.steps client = 2) :
    Follows start id original changes (race.advance segments requests client) (trace.advance client) ∨
      ((race.advance segments requests client).progress client).Refused := by
  have hwritten : (trace.advance client).written = client :: trace.seen client := if_pos hsteps
  have hinfos : mergedInfos original changes (client :: trace.seen client) =
      mergedInfos original changes (trace.advance client).written := by rw [hwritten]
  have hseen : (trace.advance client).seen = trace.seen := if_neg (by omega)
  generalize mergedInfos original changes (client :: trace.seen client) = infos at hprogress hinfos
  have hadvance : race.service.advance (segments client) (requests client) (race.progress client) =
      ((race.service.storeUpdate id infos).1, .answered (race.service.storeUpdate id infos).2) := by
    rw [hprogress, Service.advance]
  rcases hfollows.get_eq hbound hchanges horiginal with ⟨record, rfl, -, hget⟩ | hget
  · rw [Service.storeUpdate_of_get hget] at hadvance
    have hstored := RecordStore.get?_write race.service.records { record with infos }
    refine .inl (hfollows.of_step hadvance hfollows.settings ⟨{ record with infos }, rfl, hinfos, hstored⟩ ?_)
    rw [hseen, hsteps]
    exact .answered _ _ (Nat.le_refl 3)
  · rw [Service.storeUpdate, RecordStore.update, hget] at hadvance
    rw [progress_advance_self, hadvance]
    exact .inr ⟨_, rfl⟩

theorem Follows.advance (hfollows : Follows start id original changes race trace) (client : Client) :
    Follows start id original changes (race.advance segments requests client) (trace.advance client) ∨
      ((race.advance segments requests client).progress client).Refused := by
  have hstep := hfollows.inStep client
  generalize hprogress : race.progress client = progress at hstep
  generalize hseen : trace.seen client = seen at hstep
  generalize hsteps : trace.steps client = steps at hstep
  cases hstep with
  | asked => exact hfollows.advance_asked hid hbound hchanges horiginal hprogress hsteps
  | @read _ record hinfos =>
      -- the changes go into what was read, whatever has been stored since
      have hwritten : (trace.advance client).written = trace.written := if_neg (by omega)
      have hsame : (trace.advance client).seen = trace.seen := if_neg (by omega)
      cases hchanged : race.service.changedInfos record (requests client) with
      | error refusal =>
          refine .inr ⟨refusal, ?_⟩
          rw [progress_advance_self, hprogress, Service.advance, hchanged]
      | ok infos =>
          have hadvance : race.service.advance (segments client) (requests client) (race.progress client) =
              (race.service, .merged id infos) := by
            rw [hprogress, Service.advance, hchanged]
          obtain ⟨own, hown, rfl, -⟩ := Service.exists_of_changedInfos hchanged
          rw [hfollows.settings, hchanges client] at hown
          obtain rfl := Except.ok.inj hown
          refine .inl (hfollows.of_step hadvance hfollows.settings (hwritten ▸ hfollows.stored) ?_)
          rw [hinfos, hsame, hseen, hsteps]
          exact .merged seen
  | merged =>
      subst hseen
      exact hfollows.advance_merged hbound hchanges horiginal hprogress hsteps
  | answered contact _ hdone =>
      have hwritten : (trace.advance client).written = trace.written := if_neg (by omega)
      have hsame : (trace.advance client).seen = trace.seen := if_neg (by omega)
      have hadvance : race.service.advance (segments client) (requests client) (race.progress client) =
          (race.service, .answered (.ok contact)) := by
        rw [hprogress, Service.advance]
      refine .inl (hfollows.of_step hadvance hfollows.settings (hwritten ▸ hfollows.stored) ?_)
      rw [hsame, hseen]
      exact .answered contact seen (by omega)

theorem Follows.run (hfollows : Follows start id original changes race trace) (schedule : List Client) :
    Follows start id original changes (race.run segments requests schedule) (trace.run schedule) ∨
      ∃ client, ((race.run segments requests schedule).progress client).Refused := by
  induction schedule generalizing race trace with
  | nil => exact .inl hfollows
  | cons client rest ih =>
      change Follows _ _ _ _ ((race.advance segments requests client).run segments requests rest) _ ∨
        ∃ other, (((race.advance segments requests client).run segments requests rest).progress other).Refused
      rcases hfollows.advance hid hbound hchanges horiginal client with hfollows | hrefused
      · exact ih hfollows
      · exact .inr ⟨client, refused_run hrefused⟩

end Step

/-! ### What is kept -/

/-- The members of changes are held, as they are or as they are read back. -/
def Kept (infos changes : Members) : Prop :=
  ∀ member ∈ changes, infos.get? member.1 = some member.2 ∨ infos.get? member.1 = some (member.2.withFloats reread)

theorem kept_extend_iff {infos own others : Members} (hdisjoint : ∀ member ∈ own, member.1 ∉ others.keys) :
    Kept (infos.extend others) own ↔ Kept infos own := by
  refine forall₂_congr fun member hmem => ?_
  rw [Assoc.get?_extend_of_not_mem infos (hdisjoint member hmem)]

theorem kept_extend_self (infos : Members) {own : Members} (hnodup : own.keys.Nodup) : Kept (infos.extend own) own :=
  fun _ hmem => .inl (Assoc.get?_extend_of_mem infos hnodup hmem)

theorem kept_readBack (infos : Members) {own : Members} (hnodup : own.keys.Nodup) :
    Kept (withFloatsInMembers reread (infos.extend own)) own := by
  intro member hmem
  rw [Json.get?_withFloatsInMembers, Assoc.get?_extend_of_mem infos hnodup hmem]
  exact .inr rfl

/-- The changes of both clients are kept if both have been merged, and if those of the other one were there before. -/
theorem kept_mergedInfos_iff {written : List Client} {last : Client} {serial : Prop} [Decidable serial]
    (hwritten : written = if serial then [last, last.other] else [last]) (hnodup : ∀ client, (changes client).keys.Nodup)
    (hdisjoint : ∀ member ∈ changes last.other, member.1 ∉ (changes last).keys) :
    (∀ client, Kept (mergedInfos original changes written) (changes client)) ↔
      serial ∨ Kept (withFloatsInMembers reread original) (changes last.other) := by
  have hboth : ∀ infos : Members, (∀ client, Kept (infos.extend (changes last)) (changes client)) ↔
      Kept infos (changes last.other) := by
    intro infos
    refine ⟨fun hall => (kept_extend_iff hdisjoint).1 (hall last.other), fun hother client => ?_⟩
    rcases client.eq_or_eq_other last with rfl | rfl
    · exact kept_extend_self infos (hnodup _)
    · exact (kept_extend_iff hdisjoint).2 hother
  subst hwritten
  by_cases hserial : serial
  · rw [if_pos hserial, mergedInfos, hboth]
    exact iff_of_true (kept_readBack _ (hnodup _)) (.inl hserial)
  · rw [if_neg hserial, mergedInfos, hboth, mergedInfos]
    exact (or_iff_right hserial).symm

end Race

namespace Service

open Race (Kept)

/-- An update that is done before the other one begins is answered as if it were alone, and so is the other one. -/
theorem run_serial (service : Service) (segments : Client → List Char) (requests : Client → Request) (last : Client) :
    (Race.run segments requests { service } (List.replicate 3 last.other ++ List.replicate 3 last)).service =
      ((service.changeContact (segments last.other) (requests last.other)).1.changeContact
        (segments last) (requests last)).1 := by
  have hne : last ≠ last.other := by cases last <;> decide
  rw [Race.run_append, Race.run_alone segments requests { service } rfl, Race.run_alone]
  exact Function.update_of_ne hne _ _

/-- The changes of overlapping updates are both kept only if those of the first one were there before. -/
theorem both_kept_iff_serial (service : Service) (hprepared : service.Prepared) (turns : List Turn)
    (hids : (createdIds (service.history turns)).length < unsignedBound) {id : Nat} {old : Record}
    (hold : (service.after turns).records.get id = .ok (some old)) (segments : Client → List Char)
    (requests : Client → Request) (hid : ∀ client, Input.contactId (segments client) = .ok id)
    (changes : Client → Members)
    (hchanges : ∀ client, Input.infos service.settings.maxUploadBytes (requests client) = .ok (changes client))
    (hdisjoint : ∀ key ∈ (changes .first).keys, key ∉ (changes .second).keys) (schedule : List Client)
    (hcounts : ∀ client, schedule.count client = 3) (last : Client) (hlast : schedule.getLast? = some last)
    (hanswered : ∀ client,
      ((Race.run segments requests { service := service.after turns } schedule).progress client).contact?.isSome) :
    (∃ stored : Record,
      (Race.run segments requests { service := service.after turns } schedule).service.records.entries.get? id =
        some stored.encode ∧
      ((∀ client, Kept stored.infos (changes client)) ↔
        schedule.take 3 = List.replicate 3 last.other ∨ Kept old.infos (changes last.other))) ∧
    (schedule.take 3 = List.replicate 3 last.other →
      (Race.run segments requests { service := service.after turns } schedule).service =
        (((service.after turns).changeContact (segments last.other) (requests last.other)).1.changeContact
          (segments last) (requests last)).1) := by
  have hnext := nextId_le_of_prepared hprepared hids
  obtain ⟨known, records, hmirrors, -⟩ :=
    mirrors_of_prepared (P := fun _ => True) hprepared hids fun _ _ _ _ _ _ => trivial
  obtain ⟨original, hmem, rfl, -, rfl⟩ := hmirrors.holds.exists_of_get hnext hold
  have hbound : original.id < unsignedBound := Nat.lt_of_lt_of_le (hmirrors.holds.fresh original hmem) hnext
  have hfollows : Race.Follows (service.after turns) original.id original.infos changes { service := service.after turns } {} :=
    ⟨rfl, ⟨original, rfl, rfl, hmirrors.holds.get?_eq hmem⟩, fun client => .asked []⟩
  constructor
  · rw [← settings_after service turns] at hchanges
    -- a refused update stays refused, so one that is answered with success has followed the trace to the end
    rcases hfollows.run hid hbound hchanges (hmirrors.holds.sound original hmem) schedule with
      hfollows | ⟨client, refusal, hrefused⟩
    · obtain ⟨stored, -, hinfos, hentry⟩ := hfollows.stored
      refine ⟨stored, hentry, ?_⟩
      have hnodup : ∀ client, (changes client).keys.Nodup := by
        intro client
        cases (Input.sound_of_infos (hchanges client) 0 "").infos with
        | obj hnodup _ => exact hnodup
      have hapart : ∀ member ∈ changes last.other, member.1 ∉ (changes last).keys := by
        intro member hmember hkey
        have hown : member.1 ∈ (changes last.other).keys := List.mem_map_of_mem hmember
        cases last with
        | first => exact hdisjoint _ hkey hown
        | second => exact hdisjoint _ hown hkey
      rw [hinfos]
      exact Race.kept_mergedInfos_iff (Trace.written_run hcounts hlast) hnodup hapart
    · have hsome := hanswered client
      rw [hrefused] at hsome
      nomatch hsome
  · intro hserial
    rw [Client.eq_append_of_counts hcounts hserial]
    exact run_serial _ segments requests last

def pairCreated : Turn := sending .post "/contact" "\x7b\"a\":1,\"b\":1\x7d".toList

def changesOf : Client → Members
  | .first => [("a", .int 2)]
  | .second => [("b", .int 2)]

def updateOf (client : Client) : Request :=
  (sending .put "/contact/1" (Json.obj (changesOf client)).compact.toList).request

def overlapping : List Client := [.first, .second, .first, .second, .first, .second]

theorem both_kept_iff_serial_overlapping :
    ∃ stored : Record,
      (Race.run (fun _ => ['1']) updateOf { service := inEmptyFolder.after [pairCreated] } overlapping).service.records.entries.get?
        1 = some stored.encode ∧
      ((∀ client, Kept stored.infos (changesOf client)) ↔
        overlapping.take 3 = List.replicate 3 Client.first ∨ Kept [("a", .int 1), ("b", .int 1)] (changesOf .first)) := by
  have hold : (inEmptyFolder.after [pairCreated]).records.get 1 = .ok (some {
      id := 1, infos := [("a", .int 1), ("b", .int 1)], inserted := "2024-01-01T00:00:00Z" }) := by decide +kernel
  exact (both_kept_iff_serial inEmptyFolder prepared_inEmptyFolder [pairCreated]
    ((length_createdIds_le _ _).trans_lt (by decide)) hold (fun _ => ['1']) updateOf (by decide +kernel)
    changesOf (by decide +kernel) (by decide) overlapping (by decide) .second rfl (by decide +kernel)).1

theorem overlapping_update_lost :
    (∀ client, Input.infos inEmptyFolder.settings.maxUploadBytes (updateOf client) = .ok (changesOf client)) ∧
    (∀ client, ((Race.run (fun _ => ['1']) updateOf { service := inEmptyFolder.after [pairCreated] } overlapping).progress
      client).contact?.isSome) ∧
    ((Race.run (fun _ => ['1']) updateOf { service := inEmptyFolder.after [pairCreated] } overlapping).service.records.get 1).map
      (Option.map Record.infos) = .ok (some [("a", .int 1), ("b", .int 2)]) := by
  decide +kernel

end Service

end AddressBook
