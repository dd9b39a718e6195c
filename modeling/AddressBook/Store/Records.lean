import AddressBook.Json.Printer
import AddressBook.Json.Reader
import AddressBook.Schema.Basic
import AddressBook.Store.Fault
/-!
# The record store

A record is the infos of a contact under an id, with the time it was inserted. The store keeps the JSON
text of each record at its id, in the order of the ids, which are given out in increasing order from one
and never again.

The text of a record is read back whenever the record is asked for. The record wraps its infos in one
more object, so infos that nest as deep as a text may are stored and can not be read back.
-/

namespace AddressBook

open Text (Bytes)

/-- A stored contact. -/
structure Record where
  id : Nat
  infos : Members
  inserted : String
deriving DecidableEq

namespace Record

def toJson (record : Record) : Json :=
  .obj [("id", .int record.id), ("infos", .obj record.infos),
    ("inserted_timestamp", .str record.inserted)]

def ofJson? : Json → Option Record
  | .obj members =>
      match Assoc.get? members "id", Assoc.get? members "infos",
        Assoc.get? members "inserted_timestamp" with
      | some (.int id), some (.obj infos), some (.str inserted) =>
          if 0 ≤ id then some { id := id.toNat, infos, inserted } else none
      | _, _, _ => none
  | _ => none

def encode (record : Record) : Bytes := Text.Utf8.encodeString record.toJson.compact

def decode (content : Bytes) : Except StoreFault Record :=
  match ((Text.Utf8.decode? content).bind Json.parse?).bind ofJson? with
  | some record => .ok record
  | none => .error .serialization

/-- The record as it is sent: its infos and its id. -/
def contact (record : Record) : Json :=
  .obj (record.infos.insert idField (.int record.id))

end Record

/-- The stored texts by id, and the next id. -/
structure RecordStore where
  entries : Assoc Nat Bytes := []
  nextId : Nat := 1
deriving DecidableEq

namespace RecordStore

/-- Decodes stored texts, up to the first that is no record. -/
def decodeAll : List Bytes → Except StoreFault (List Record)
  | [] => .ok []
  | content :: rest => do
      let first ← Record.decode content
      let others ← decodeAll rest
      pure (first :: others)

/-- Every record, in the order of the ids. -/
def list (store : RecordStore) : Except StoreFault (List Record) :=
  decodeAll (store.entries.map Prod.snd)

def get (store : RecordStore) (id : Nat) : Except StoreFault (Option Record) :=
  match store.entries.get? id with
  | none => .ok none
  | some content => (Record.decode content).map some

/-- Stores the text of a record at its id. -/
def write (store : RecordStore) (record : Record) : RecordStore :=
  { store with entries := store.entries.insert record.id record.encode }

/-- Stores infos under a new id. -/
def create (store : RecordStore) (infos : Members) (now : String) : RecordStore × Record :=
  let record : Record := { id := store.nextId, infos, inserted := now }
  ({ store with nextId := store.nextId + 1 }.write record, record)

/-- Replaces the infos of a record, which keeps its id and time. -/
def update (store : RecordStore) (id : Nat) (infos : Members) :
    RecordStore × Except StoreFault Record :=
  match store.get id with
  | .error fault => (store, .error fault)
  | .ok none => (store, .error (.notFound id))
  | .ok (some record) =>
      let record := { record with infos }
      (store.write record, .ok record)

/-- Removes a record and answers it. Its text is removed before it is read. -/
def delete (store : RecordStore) (id : Nat) : RecordStore × Except StoreFault (Option Record) :=
  match store.entries.get? id with
  | none => (store, .ok none)
  | some content =>
      ({ store with entries := store.entries.erase id }, (Record.decode content).map some)

end RecordStore

end AddressBook
