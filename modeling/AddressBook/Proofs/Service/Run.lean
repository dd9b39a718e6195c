import AddressBook.Service.Router
/-!
# Runs and what a client sees of them

A run is a list of turns that a service takes one after the other. A client sees the requests and the answers, and
nothing else: from them it can keep a ledger of the contacts, which are those that were created and not deleted since,
each with the body of the last answer that told of it.
-/

namespace AddressBook

open Http (Method Request Response)

/-- A request, and what the world supplies to it. -/
structure Turn where
  occasion : Occasion
  request : Request

structure Exchange where
  request : Request
  response : Response

namespace Service

def next (service : Service) (turn : Turn) : Service := (service.answer turn.occasion turn.request).1

/-- The service after turns taken one after the other. -/
def after (service : Service) (turns : List Turn) : Service := turns.foldl next service

def exchange (service : Service) (turn : Turn) : Exchange :=
  { request := turn.request, response := (service.answer turn.occasion turn.request).2 }

/-- The exchanges of turns taken one after the other. -/
def history (service : Service) : List Turn → List Exchange
  | [] => []
  | turn :: rest => service.exchange turn :: (service.next turn).history rest

/-- The stores of a service have been prepared, and nothing has been asked of it yet. -/
def Prepared (service : Service) : Prop := ∃ files, prepare service.settings files = .ok service

/-- The service that the default settings prepare in an empty folder. -/
def inEmptyFolder : Service where
  settings := {}
  files := {
    nodes := [((1, ["config.json"]), .file []), ((1, ["uploads"]), .folder), ((1, ["contacts.db"]), .folder),
      ((2, ["contacts.db", "blobs"]), .folder)] }

/-- A request about contacts with a JSON body, at some time. -/
def sending (method : Method) (target : String) (contact : List Char) : Turn where
  occasion := { now := "2024-01-01T00:00:00Z", uptimeSeconds := 0, freshName := "0" }
  request := { method, target, contentType := some "application/json", body := Text.Utf8.encode contact }

theorem prepared_inEmptyFolder : inEmptyFolder.Prepared := ⟨{}, rfl⟩

end Service

/-! ### The ledger of a client -/

/-- What an answer tells of the contacts. -/
inductive ContactEvent where
  | created (id : Nat) (contact : Json)
  | updated (id : Nat) (contact : Json)
  | deleted (id : Nat)
deriving DecidableEq

namespace ContactEvent

def id : ContactEvent → Nat
  | created id _ | updated id _ | deleted id => id

def contact? : ContactEvent → Option Json
  | created _ contact | updated _ contact => some contact
  | deleted _ => none

def createdId? : ContactEvent → Option Nat
  | created id _ => some id
  | _ => none

end ContactEvent

/-- The id that a contact carries. -/
def contactId? : Json → Option Nat
  | .obj members =>
      match Assoc.get? members idField with
      | some (.int id) => some id.toNat
      | _ => none
  | _ => none

namespace Exchange

def answered? (exchange : Exchange) : Option Json :=
  match exchange.response.body with
  | .json value => some value
  | _ => none

/-- What an answer with 200 to a method at a route tells of the contacts. -/
def eventAt? (exchange : Exchange) : Method → Route → Option ContactEvent
  | .post, .contacts => do
      let contact ← exchange.answered?
      let id ← contactId? contact
      pure (.created id contact)
  | .put, .contact segment => do
      let contact ← exchange.answered?
      let id ← (Input.contactId segment).toOption
      pure (.updated id contact)
  | .delete, .contact segment => (Input.contactId segment).toOption.map .deleted
  | _, _ => none

/-- The methods at the routes that change contacts. -/
inductive ChangesContacts : Method → Route → Prop
  | post : ChangesContacts .post .contacts
  | put (segment : List Char) : ChangesContacts .put (.contact segment)
  | delete (segment : List Char) : ChangesContacts .delete (.contact segment)

def route? (exchange : Exchange) : Option Route := Route.ofPath? (Http.Target.path exchange.request.target)

/-- What the answer tells of the contacts; nothing unless its status is 200. -/
def event? (exchange : Exchange) : Option ContactEvent :=
  if exchange.response.status = 200 then exchange.route?.bind (exchange.eventAt? exchange.request.method) else none

/-- The JSON body of a request that created or updated a contact. -/
def acceptedBody? (limit : Nat) (exchange : Exchange) : Option Json := do
  let event ← exchange.event?
  let _ ← event.contact?
  (Input.json limit exchange.request).toOption

end Exchange

/-- The contacts that a client knows of, by their ids, in the order of their creation. -/
abbrev Ledger := Assoc Nat Json

namespace Ledger

def enter (ledger : Ledger) : ContactEvent → Ledger
  | .created id contact => ledger ++ [(id, contact)]
  | .updated id contact => ledger.insert id contact
  | .deleted id => ledger.erase id

/-- Enters what an exchange tells, if it tells anything. -/
def note (ledger : Ledger) (exchange : Exchange) : Ledger :=
  match exchange.event? with
  | some event => ledger.enter event
  | none => ledger

/-- The ledger of a history. -/
def ofHistory (history : List Exchange) : Ledger := history.foldl note []

end Ledger

/-- The ids that were given out in a history, in their order. -/
def createdIds (history : List Exchange) : List Nat :=
  history.filterMap fun exchange => exchange.event?.bind ContactEvent.createdId?

/-! ### Steps of the records -/

/--
What a turn does to the records, and what its answer tells. A contact whose text is not read back is removed by a
request that is answered as a failure, so nothing tells of that.
-/
inductive RecordStep (limit : Nat) (request : Request) (store : RecordStore) : RecordStore → Option ContactEvent → Prop
  | none : RecordStep limit request store store none
  | created {infos : Members} (now : String) (hinfos : Input.infos limit request = .ok infos) :
      RecordStep limit request store (store.create infos now).1
        (some (.created store.nextId (store.create infos now).2.contact))
  | updated {id : Nat} {record : Record} {changes : Members} (hrecord : store.get id = .ok (some record))
      (hchanges : Input.infos limit request = .ok changes) :
      RecordStep limit request store (store.write { record with infos := record.infos.extend changes })
        (some (.updated id { record with infos := record.infos.extend changes }.contact))
  | deleted {id : Nat} {record : Record} (hrecord : store.get id = .ok (some record)) :
      RecordStep limit request store { store with entries := store.entries.erase id } (some (.deleted id))
  | lost {id : Nat} {fault : StoreFault} (hfault : store.get id = .error fault) :
      RecordStep limit request store { store with entries := store.entries.erase id } none

end AddressBook
