import AddressBook.Proofs.Json.RoundTrip
import AddressBook.Proofs.Text.Utf8
import AddressBook.Store.Records
import Mathlib.Data.List.Nodup
/-!
# Records as they are read back

The text of a record is read back as the record, every double replaced by the one that its text is read as, exactly if
its infos nest at most 126 deep: the record is one more object around them. A store that holds such texts is described by
the list of its records, in the order of their ids, and every operation of the store is said on that list.
-/

namespace AddressBook

open Json (depthLimit reread unsignedBound withFloatsInMembers)
open Number (Binary64)

namespace Record

/-- The infos of a record are members that a text can stand for, and the id is not among them. -/
structure Sound (record : Record) : Prop where
  infos : (Json.obj record.infos).WellFormed
  noId : idField ∉ Assoc.keys record.infos

/-- How deep the infos of a record nest, as an object. -/
def depth (record : Record) : Nat := (Json.obj record.infos).depth

/-- The record with the doubles that are read back in the places of its own. -/
def readBack (record : Record) : Record := { record with infos := withFloatsInMembers reread record.infos }

/-! ### The text of a record -/

theorem wellFormed_toJson {record : Record} (hinfos : (Json.obj record.infos).WellFormed)
    (hid : record.id < unsignedBound) : record.toJson.WellFormed := by
  have hfits : Json.Fits64 record.id := by
    constructor
    · unfold Json.leastSigned
      omega
    · exact_mod_cast hid
  refine .obj (by simp [Assoc.keys]) ?_
  simp only [List.forall_mem_cons]
  exact ⟨.int hfits, hinfos, .str _, by simp⟩

theorem depth_toJson (record : Record) : record.toJson.depth = record.depth + 1 := by
  simp [toJson, depth, Json.depth, Json.depthOfMembers]

theorem ofJson?_toJson (record : Record) (f : Binary64 → Binary64) :
    ofJson? (record.toJson.withFloats f) = some { record with infos := withFloatsInMembers f record.infos } := by
  have hid : (0 : Int) ≤ record.id := Int.natCast_nonneg _
  simp [toJson, Json.withFloats, Json.withFloatsInMembers, ofJson?, Assoc.get?]

theorem decode_encode {record : Record} (hinfos : (Json.obj record.infos).WellFormed)
    (hid : record.id < unsignedBound) :
    decode record.encode = if record.depth < depthLimit then .ok record.readBack else .error .serialization := by
  rw [decode, encode, Text.Utf8.decode?_encodeString, Option.bind_some,
    Json.parse?_compact (wellFormed_toJson hinfos hid), depth_toJson]
  by_cases hdepth : record.depth < depthLimit
  · rw [if_pos hdepth, if_pos (Nat.succ_le_of_lt hdepth), Option.bind_some, ofJson?_toJson]
    rfl
  · rw [if_neg hdepth, if_neg (by omega), Option.bind_none]

/-! ### The contact of a record -/

theorem contact_eq {record : Record} (hsound : record.Sound) :
    record.contact = .obj (record.infos ++ [(idField, .int record.id)]) := by
  rw [contact, Assoc.insert_of_not_mem _ hsound.noId]

theorem depth_contact {record : Record} (hsound : record.Sound) : record.contact.depth = record.depth := by
  have hmembers : ∀ members : Members,
      Json.depthOfMembers (members ++ [(idField, .int record.id)]) = Json.depthOfMembers members := by
    intro members
    induction members with
    | nil => simp [Json.depthOfMembers, Json.depth]
    | cons member rest ih => rw [List.cons_append, Json.depthOfMembers, Json.depthOfMembers, ih]
  rw [contact_eq hsound, depth, Json.depth, Json.depth, hmembers]

theorem sound_readBack {record : Record} (hsound : record.Sound) : record.readBack.Sound where
  infos := hsound.infos.withFloats
  noId := by
    rw [readBack, Json.keys_withFloatsInMembers]
    exact hsound.noId

theorem infos_readBack_ne_nil {record : Record} (hinfos : record.infos ≠ []) : record.readBack.infos ≠ [] := by
  rw [readBack, Json.withFloatsInMembers_eq_map]
  exact fun hnil => hinfos (List.map_eq_nil_iff.1 hnil)

/-! ### Records that are read back as they are -/

/-- The infos of a record nest at most 126 deep, and the texts of their doubles are read as the doubles. -/
structure Exact (record : Record) : Prop where
  depth_lt : record.depth < depthLimit
  reprints : ∀ x ∈ (Json.obj record.infos).floats, Json.Reprints x

theorem readBack_eq_self {record : Record} (hexact : record.Exact) : record.readBack = record := by
  have hsame := Json.withFloats_eq_self fun x hx => Json.reread_eq_self (hexact.reprints x hx)
  rw [readBack]
  exact congrArg (fun infos => { record with infos }) (Json.obj.inj hsame)

/-- Infos that are all members of exact ones, or of a body that could make up exact ones, are exact. -/
theorem exact_of_forall_mem {record : Record}
    (hmembers : ∀ member ∈ record.infos, member.2.depth < 126 ∧ ∀ x ∈ member.2.floats, Json.Reprints x) :
    record.Exact where
  depth_lt := Nat.lt_succ_of_le (Json.depth_obj_le_iff.2 fun member hmem => Nat.le_of_lt_succ (hmembers member hmem).1)
  reprints x hx := by
    obtain ⟨member, hmem, hx⟩ := Json.mem_floatsOfMembers.1 hx
    exact (hmembers member hmem).2 x hx

theorem Exact.forall_mem {record : Record} (hexact : record.Exact) :
    ∀ member ∈ record.infos, member.2.depth < 126 ∧ ∀ x ∈ member.2.floats, Json.Reprints x := by
  intro member hmem
  refine ⟨?_, fun x hx => hexact.reprints x (Json.mem_floatsOfMembers.2 ⟨member, hmem, hx⟩)⟩
  exact Nat.lt_succ_of_le (Json.depth_obj_le_iff.1 (Nat.le_of_lt_succ hexact.depth_lt) member hmem)

/-! ### Records by their ids -/

/-- What a function makes of records, at their ids. -/
def indexed {α : Type} (f : Record → α) (records : List Record) : Assoc Nat α :=
  records.map fun record => (record.id, f record)

/-- The records with another one in the place of the one with its id. -/
def replaced (record : Record) (records : List Record) : List Record :=
  records.map fun other => if other.id = record.id then record else other

section Indexed

variable {α : Type} {f : Record → α} {record other : Record} {records : List Record}

@[simp] theorem keys_indexed (f : Record → α) (records : List Record) :
    (indexed f records).keys = records.map Record.id := by
  rw [indexed, Assoc.keys, List.map_map]
  rfl

@[simp] theorem map_snd_indexed (f : Record → α) (records : List Record) :
    (indexed f records).map Prod.snd = records.map f := by
  rw [indexed, List.map_map]
  rfl

theorem exists_of_get?_indexed {id : Nat} {a : α} (hget : (indexed f records).get? id = some a) :
    ∃ record ∈ records, record.id = id ∧ a = f record := by
  obtain ⟨record, hrecord, heq⟩ := List.mem_map.1 (Assoc.mem_of_get?_eq_some hget)
  obtain ⟨rfl, rfl⟩ := Prod.mk.inj heq
  exact ⟨record, hrecord, rfl, rfl⟩

theorem indexed_append (f : Record → α) (records : List Record) (record : Record) :
    indexed f (records ++ [record]) = indexed f records ++ [(record.id, f record)] := by
  rw [indexed, List.map_append]
  rfl

theorem erase_indexed (f : Record → α) (records : List Record) (id : Nat) :
    (indexed f records).erase id = indexed f (records.filter (·.id ≠ id)) := by
  rw [indexed, Assoc.erase, List.filter_map]
  rfl

theorem id_replaced (record other : Record) : (if other.id = record.id then record else other).id = other.id := by
  split
  · rename_i heq
    exact heq.symm
  · rfl

theorem mem_replaced (hmem : other ∈ replaced record records) : other = record ∨ other ∈ records ∧ other.id ≠ record.id := by
  obtain ⟨old, hold, rfl⟩ := List.mem_map.1 hmem
  split
  · exact .inl rfl
  · exact .inr ⟨hold, ‹_›⟩

theorem mem_replaced_of_mem (hmem : other ∈ records) :
    (if other.id = record.id then record else other) ∈ replaced record records :=
  List.mem_map.2 ⟨other, hmem, rfl⟩

theorem insert_indexed (hnodup : (records.map Record.id).Nodup) (hmem : record.id ∈ records.map Record.id) :
    (indexed f records).insert record.id (f record) = indexed f (replaced record records) := by
  induction records with
  | nil => simp at hmem
  | cons first rest ih =>
      obtain ⟨hfirst, hrest⟩ := List.nodup_cons.1 hnodup
      by_cases heq : first.id = record.id
      · have hothers : replaced record rest = rest := by
          refine (List.map_congr_left fun other hother => ?_).trans (List.map_id rest)
          have hne : other.id ≠ record.id := by
            intro hsame
            rw [heq, ← hsame] at hfirst
            exact hfirst (List.mem_map_of_mem hother)
          exact if_neg hne
        have hcons : replaced record (first :: rest) = record :: replaced record rest := by
          rw [replaced, List.map_cons, if_pos heq]
          rfl
        rw [hcons, hothers, indexed, List.map_cons, Assoc.insert, if_pos heq, heq]
        rfl
      · have hmemRest : record.id ∈ rest.map Record.id := (List.mem_cons.1 hmem).resolve_left (Ne.symm heq)
        have hcons : replaced record (first :: rest) = first :: replaced record rest := by
          rw [replaced, List.map_cons, if_neg heq]
          rfl
        rw [hcons, indexed, List.map_cons, Assoc.insert, if_neg heq]
        exact congrArg _ (ih hrest hmemRest)

end Indexed

/-- Records in the order of their ids, which are below a bound. -/
structure Ascending (bound : Nat) (records : List Record) : Prop where
  sorted : records.Pairwise fun record other => record.id < other.id
  fresh : ∀ record ∈ records, record.id < bound

section Ascending

variable {bound : Nat} {records : List Record}

theorem Ascending.nodup (hascending : Ascending bound records) : (records.map Record.id).Nodup :=
  (List.pairwise_map.2 hascending.sorted).imp Nat.ne_of_lt

theorem Ascending.not_mem (hascending : Ascending bound records) : bound ∉ records.map Record.id := by
  intro hmem
  obtain ⟨record, hrecord, hid⟩ := List.mem_map.1 hmem
  exact absurd (hascending.fresh record hrecord) (by omega)

theorem Ascending.append (hascending : Ascending bound records) {record : Record} (hid : record.id = bound) :
    Ascending (bound + 1) (records ++ [record]) := by
  constructor
  · refine List.pairwise_append.2 ⟨hascending.sorted, List.pairwise_singleton _ _, fun other hother last hlast => ?_⟩
    rw [List.mem_singleton.1 hlast, hid]
    exact hascending.fresh other hother
  · intro other hother
    rcases List.mem_append.1 hother with hother | hother
    · exact Nat.lt_succ_of_lt (hascending.fresh other hother)
    · rw [List.mem_singleton.1 hother, hid]
      exact Nat.lt_succ_self bound

theorem Ascending.replaced (hascending : Ascending bound records) (record : Record) :
    Ascending bound (replaced record records) := by
  constructor
  · refine List.pairwise_map.2 (hascending.sorted.imp fun {first second} hlt => ?_)
    rw [id_replaced, id_replaced]
    exact hlt
  · intro other hother
    obtain ⟨old, hold, rfl⟩ := List.mem_map.1 hother
    rw [id_replaced]
    exact hascending.fresh old hold

theorem Ascending.filter (hascending : Ascending bound records) (p : Record → Bool) :
    Ascending bound (records.filter p) where
  sorted := hascending.sorted.filter p
  fresh record hmem := hascending.fresh record (List.mem_of_mem_filter hmem)

end Ascending

/-- Sound records in the order of their ids, which are below a bound. -/
structure Orderly (bound : Nat) (records : List Record) : Prop where
  sorted : records.Pairwise fun record other => record.id < other.id
  sound : ∀ record ∈ records, record.Sound
  fresh : ∀ record ∈ records, record.id < bound

section Orderly

variable {bound : Nat} {records : List Record}

theorem Orderly.ascending (horderly : Orderly bound records) : Ascending bound records := ⟨horderly.sorted, horderly.fresh⟩

theorem Orderly.nodup (horderly : Orderly bound records) : (records.map Record.id).Nodup := horderly.ascending.nodup

theorem Orderly.eq_of_id_eq (horderly : Orderly bound records) {record other : Record} (hrecord : record ∈ records)
    (hother : other ∈ records) (heq : record.id = other.id) : record = other :=
  List.inj_on_of_nodup_map horderly.nodup hrecord hother heq

theorem Orderly.append (horderly : Orderly bound records) {record : Record} (hsound : record.Sound)
    (hid : record.id = bound) : Orderly (bound + 1) (records ++ [record]) := by
  obtain ⟨hsorted, hfresh⟩ := horderly.ascending.append hid
  refine ⟨hsorted, fun other hother => ?_, hfresh⟩
  rcases List.mem_append.1 hother with hother | hother
  · exact horderly.sound other hother
  · rw [List.mem_singleton.1 hother]
    exact hsound

theorem Orderly.replaced (horderly : Orderly bound records) {record : Record} (hsound : record.Sound) :
    Orderly bound (replaced record records) := by
  obtain ⟨hsorted, hfresh⟩ := horderly.ascending.replaced record
  refine ⟨hsorted, fun other hother => ?_, hfresh⟩
  rcases mem_replaced hother with rfl | ⟨hother, -⟩
  · exact hsound
  · exact horderly.sound other hother

theorem Orderly.filter (horderly : Orderly bound records) (p : Record → Bool) : Orderly bound (records.filter p) where
  sorted := horderly.sorted.filter p
  sound record hmem := horderly.sound record (List.mem_of_mem_filter hmem)
  fresh record hmem := horderly.fresh record (List.mem_of_mem_filter hmem)

end Orderly

end Record

namespace RecordStore

open Record

/-! ### Removal -/

theorem delete_eq (store : RecordStore) (id : Nat) :
    store.delete id = ({ store with entries := store.entries.erase id }, store.get id) := by
  unfold delete RecordStore.get
  cases hget : store.entries.get? id with
  | none => rw [Assoc.erase_of_not_mem (Assoc.get?_eq_none_iff.1 hget)]
  | some content => rfl

theorem delete_of_get_none {store : RecordStore} {id : Nat} (hnone : store.get id = .ok none) :
    store.delete id = (store, .ok none) := by
  unfold RecordStore.get at hnone
  cases hget : store.entries.get? id with
  | none => rw [delete, hget]
  | some content =>
      rw [hget] at hnone
      cases hdecode : Record.decode content <;> simp [hdecode, Except.map] at hnone

theorem get?_write (store : RecordStore) (record : Record) :
    (store.write record).entries.get? record.id = some record.encode := Assoc.get?_insert_self ..

/-! ### The texts of a store -/

section Texts

variable {store : RecordStore} {records : List Record} (hentries : store.entries = indexed Record.encode records)
  (hascending : Ascending store.nextId records)

include hentries

include hascending in
theorem entries_create (infos : Members) (now : String) : (store.create infos now).1.entries =
    indexed Record.encode (records ++ [{ id := store.nextId, infos, inserted := now }]) := by
  have hnew : store.nextId ∉ store.entries.keys := by
    rw [hentries, keys_indexed]
    exact hascending.not_mem
  change store.entries.insert store.nextId _ = _
  rw [Assoc.insert_of_not_mem _ hnew, hentries, indexed_append]

include hascending in
theorem entries_write {record : Record} (hmem : record.id ∈ records.map Record.id) :
    (store.write record).entries = indexed Record.encode (replaced record records) := by
  change store.entries.insert record.id record.encode = _
  rw [hentries, insert_indexed hascending.nodup hmem]

end Texts

/-! ### The records of a store -/

/-- A store holds the texts of records, in the order of their ids, which are below the next one. -/
structure Holds (store : RecordStore) (records : List Record) : Prop extends Orderly store.nextId records where
  entries : store.entries = indexed Record.encode records

section Holds

variable {store : RecordStore} {records : List Record}

theorem holds_empty : Holds {} [] where
  entries := rfl
  sorted := .nil
  sound := by simp
  fresh := by simp

theorem Holds.keys (hholds : Holds store records) : store.entries.keys = records.map Record.id := by
  rw [hholds.entries, keys_indexed]

theorem Holds.exists_of_get? (hholds : Holds store records) {id : Nat} {content : Text.Bytes}
    (hget : store.entries.get? id = some content) : ∃ record ∈ records, record.id = id ∧ content = record.encode :=
  exists_of_get?_indexed (hholds.entries ▸ hget)

theorem Holds.decode_encode (hholds : Holds store records) (hnext : store.nextId ≤ unsignedBound) {record : Record}
    (hmem : record ∈ records) :
    Record.decode record.encode =
      if record.depth < depthLimit then .ok record.readBack else .error .serialization :=
  Record.decode_encode (hholds.sound record hmem).infos (Nat.lt_of_lt_of_le (hholds.fresh record hmem) hnext)

/-- All records are read back, or none of them. -/
theorem Holds.list_eq (hholds : Holds store records) (hnext : store.nextId ≤ unsignedBound) :
    store.list = if ∀ record ∈ records, record.depth < depthLimit then .ok (records.map Record.readBack)
      else .error .serialization := by
  have hall : ∀ some ⊆ records, decodeAll (some.map Record.encode) =
      if ∀ record ∈ some, record.depth < depthLimit then .ok (some.map Record.readBack) else .error .serialization := by
    intro some hsome
    induction some with
    | nil => rfl
    | cons record rest ih =>
        obtain ⟨hmem, hrest⟩ := List.cons_subset.1 hsome
        rw [List.map_cons, decodeAll, hholds.decode_encode hnext hmem, ih hrest]
        by_cases hfirst : record.depth < depthLimit
        · by_cases hothers : ∀ other ∈ rest, other.depth < depthLimit
          · have hboth : ∀ other ∈ record :: rest, other.depth < depthLimit :=
              List.forall_mem_cons.2 ⟨hfirst, hothers⟩
            rw [if_pos hfirst, if_pos hothers, if_pos hboth]
            rfl
          · have hboth : ¬ ∀ other ∈ record :: rest, other.depth < depthLimit :=
              fun hboth => hothers (List.forall_mem_cons.1 hboth).2
            rw [if_pos hfirst, if_neg hothers, if_neg hboth]
            rfl
        · have hboth : ¬ ∀ other ∈ record :: rest, other.depth < depthLimit :=
            fun hboth => hfirst (List.forall_mem_cons.1 hboth).1
          rw [if_neg hfirst, if_neg hboth]
          rfl
  have htexts : store.entries.map Prod.snd = records.map Record.encode := by
    rw [hholds.entries, map_snd_indexed]
  rw [list, htexts]
  exact hall records (List.Subset.refl records)

theorem Holds.exists_of_get (hholds : Holds store records) (hnext : store.nextId ≤ unsignedBound) {id : Nat}
    {record : Record} (hget : store.get id = .ok (some record)) :
    ∃ stored ∈ records, stored.id = id ∧ stored.depth < depthLimit ∧ record = stored.readBack := by
  unfold RecordStore.get at hget
  split at hget
  · simp at hget
  · rename_i content hcontent
    obtain ⟨stored, hstored, hid, rfl⟩ := hholds.exists_of_get? hcontent
    rw [hholds.decode_encode hnext hstored] at hget
    split at hget
    · rename_i hdepth
      exact ⟨stored, hstored, hid, hdepth, (Option.some.inj (Except.ok.inj hget)).symm⟩
    · simp [Except.map] at hget

theorem Holds.get?_eq (hholds : Holds store records) {record : Record} (hmem : record ∈ records) :
    store.entries.get? record.id = some record.encode := by
  have hnodup : store.entries.keys.Nodup := by
    rw [hholds.keys]
    exact hholds.nodup
  have hentry : (record.id, record.encode) ∈ store.entries := by
    rw [hholds.entries]
    exact List.mem_map_of_mem hmem
  exact (Assoc.get?_eq_some_iff_mem hnodup).2 hentry

theorem Holds.get_eq (hholds : Holds store records) (hnext : store.nextId ≤ unsignedBound) {record : Record}
    (hmem : record ∈ records) (hdepth : record.depth < depthLimit) : store.get record.id = .ok (some record.readBack) := by
  rw [RecordStore.get, hholds.get?_eq hmem]
  dsimp only
  rw [hholds.decode_encode hnext hmem, if_pos hdepth]
  rfl

/-- A record that can not be got although its text is there nests too deep. -/
theorem Holds.exists_of_get_error (hholds : Holds store records) (hnext : store.nextId ≤ unsignedBound) {id : Nat}
    {fault : StoreFault} (hget : store.get id = .error fault) :
    ∃ stored ∈ records, stored.id = id ∧ depthLimit ≤ stored.depth := by
  unfold RecordStore.get at hget
  split at hget
  · simp at hget
  · rename_i content hcontent
    obtain ⟨stored, hstored, hid, rfl⟩ := hholds.exists_of_get? hcontent
    rw [hholds.decode_encode hnext hstored] at hget
    split at hget
    · simp [Except.map] at hget
    · rename_i hdepth
      exact ⟨stored, hstored, hid, Nat.le_of_not_lt hdepth⟩

/-! ### Operations -/

theorem Holds.create (hholds : Holds store records) {infos : Members} (now : String)
    (hsound : Record.Sound { id := store.nextId, infos, inserted := now }) :
    Holds (store.create infos now).1 (records ++ [{ id := store.nextId, infos, inserted := now }]) where
  toOrderly := hholds.append hsound rfl
  entries := entries_create hholds.entries hholds.ascending infos now

theorem Holds.write (hholds : Holds store records) {record : Record} (hsound : record.Sound)
    (hmem : record.id ∈ records.map Record.id) : Holds (store.write record) (replaced record records) where
  toOrderly := hholds.replaced hsound
  entries := entries_write hholds.entries hholds.ascending hmem

theorem Holds.erase (hholds : Holds store records) (id : Nat) :
    Holds { store with entries := store.entries.erase id } (records.filter (·.id ≠ id)) where
  toOrderly := hholds.filter _
  entries := by rw [hholds.entries, erase_indexed]

end Holds

end RecordStore

end AddressBook
