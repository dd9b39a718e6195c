import AddressBook.Proofs.Store.Operations
/-!
# The record store as a map

To those who call its operations the record store is a finite map from ids to infos and insertion times, with the last
id that was given out: that its records are texts does not show as long as every text is read back as its record. Nor
does it show how the texts are found. A tree of byte strings that keeps them under the eight bytes of their ids, highest
first, in the order of the bytes, gives the same answers, because the bytes are in the order of the numbers.
-/

namespace AddressBook

open Json (depthLimit unsignedBound)
open Record (indexed replaced)
open RecordStore (Operation)
open Text (Bytes)

/-! ### The map -/

/-- Infos and insertion times by id, and the last id that was given out. -/
structure ContactMap where
  contacts : Nat → Option (Members × String) := fun _ => none
  last : Nat := 0

namespace ContactMap

def record? (map : ContactMap) (id : Nat) : Option Record :=
  (map.contacts id).map fun (infos, inserted) => { id, infos, inserted }

def put (map : ContactMap) (record : Record) : ContactMap :=
  { map with contacts := Function.update map.contacts record.id (some (record.infos, record.inserted)) }

def remove (map : ContactMap) (id : Nat) : ContactMap :=
  { map with contacts := Function.update map.contacts id none }

/-- What an operation may do to the map, and what it answers. -/
inductive Step : ContactMap → Operation → ContactMap → Except StoreFault (List Record) → Prop
  | created {map : ContactMap} {id : Nat} (infos : Members) (now : String) (hnew : map.last < id) :
      Step map (.create infos now) ({ map with last := id }.put { id, infos, inserted := now })
        (.ok [{ id, infos, inserted := now }])
  | got (map : ContactMap) (id : Nat) : Step map (.get id) map (.ok (map.record? id).toList)
  | updated {map : ContactMap} {id : Nat} {record : Record} (infos : Members) (hfound : map.record? id = some record) :
      Step map (.update id infos) (map.put { record with infos }) (.ok [{ record with infos }])
  | unknown {map : ContactMap} {id : Nat} (infos : Members) (hnone : map.record? id = none) :
      Step map (.update id infos) map (.error (.notFound id))
  | deleted (map : ContactMap) (id : Nat) : Step map (.delete id) (map.remove id) (.ok (map.record? id).toList)
  | listed {map : ContactMap} {records : List Record} (hsorted : records.Pairwise fun record other => record.id < other.id)
      (hlive : ∀ record, record ∈ records ↔ map.record? record.id = some record) : Step map .list map (.ok records)

inductive Run : ContactMap → List Operation → List (Except StoreFault (List Record)) → ContactMap → Prop
  | nil (map : ContactMap) : Run map [] [] map
  | cons {map map' map'' : ContactMap} {operation : Operation} {rest : List Operation}
      {answer : Except StoreFault (List Record)} {answers : List (Except StoreFault (List Record))}
      (hstep : Step map operation map' answer) (hrest : Run map' rest answers map'') :
      Run map (operation :: rest) (answer :: answers) map''

variable {map : ContactMap} {record other : Record} {id : Nat}

theorem id_of_record? (hrecord : map.record? id = some record) : record.id = id := by
  obtain ⟨contact, -, rfl⟩ := Option.map_eq_some_iff.1 hrecord
  rfl

theorem record?_put_self (map : ContactMap) (record : Record) : (map.put record).record? record.id = some record := by
  simp [record?, put]

theorem record?_put_of_ne (map : ContactMap) (hne : id ≠ record.id) : (map.put record).record? id = map.record? id := by
  simp [record?, put, hne]

theorem record?_remove_self (map : ContactMap) (id : Nat) : (map.remove id).record? id = none := by
  simp [record?, remove]

theorem record?_remove_of_ne (map : ContactMap) {removed : Nat} (hne : id ≠ removed) :
    (map.remove removed).record? id = map.record? id := by
  simp [record?, remove, hne]

end ContactMap

namespace RecordStore

def Operation.id? : Operation → Option Nat
  | get id | update id _ | delete id => some id
  | create _ _ | list => none

def answers (store : RecordStore) : List Operation → List (Except StoreFault (List Record))
  | [] => []
  | operation :: rest => (store.perform operation).2 :: (store.perform operation).1.answers rest

/-! ### Stores that stand for a map -/

/-- Infos that a record is read back with. -/
def Readable (infos : Members) : Prop :=
  (Json.obj infos).WellFormed ∧ (Json.obj infos).depth ≤ 126 ∧ ∀ x ∈ (Json.obj infos).floats, Json.Reprints x

/-- A store holds the texts of the records of a map, in the order of their ids. -/
structure Represents (store : RecordStore) (map : ContactMap) (records : List Record) : Prop
    extends Record.Ascending store.nextId records where
  entries : store.entries = indexed Record.encode records
  last : map.last < store.nextId
  live : ∀ record, record ∈ records ↔ map.record? record.id = some record
  readable : ∀ record ∈ records, Readable record.infos

section Represents

variable {store : RecordStore} {map : ContactMap} {records : List Record} {record : Record} {id : Nat}

theorem represents_empty : Represents {} {} [] where
  entries := rfl
  sorted := .nil
  fresh := by simp
  last := Nat.one_pos
  live record := ⟨nofun, nofun⟩
  readable := by simp

theorem decode_encode_of_readable (hreadable : Readable record.infos) (hid : record.id < unsignedBound) :
    Record.decode record.encode = .ok record := by
  obtain ⟨hwell, hdepth, hreprints⟩ := hreadable
  have hlt : record.depth < depthLimit := Nat.lt_succ_of_le hdepth
  rw [Record.decode_encode hwell hid, if_pos hlt, Record.readBack_eq_self ⟨hlt, hreprints⟩]

theorem decodeAll_encode (hdecode : ∀ record ∈ records, Record.decode record.encode = .ok record) :
    decodeAll (records.map Record.encode) = .ok records := by
  induction records with
  | nil => rfl
  | cons record rest ih =>
      obtain ⟨hfirst, hrest⟩ := List.forall_mem_cons.1 hdecode
      rw [List.map_cons, decodeAll, hfirst, ih hrest]
      rfl

namespace Represents

theorem keys (hrep : Represents store map records) : store.entries.keys = records.map Record.id := by
  rw [hrep.entries, Record.keys_indexed]

theorem pairwise_keys (hrep : Represents store map records) : store.entries.keys.Pairwise (· < ·) := by
  rw [hrep.keys]
  exact List.pairwise_map.2 hrep.sorted

theorem keys_lt_nextId (hrep : Represents store map records) : ∀ id ∈ store.entries.keys, id < store.nextId := by
  rw [hrep.keys]
  exact List.forall_mem_map.2 hrep.fresh

theorem keys_lt (hrep : Represents store map records) (hnext : store.nextId ≤ unsignedBound) :
    ∀ id ∈ store.entries.keys, id < unsignedBound :=
  fun id hmem => Nat.lt_of_lt_of_le (hrep.keys_lt_nextId id hmem) hnext

theorem decode_encode (hrep : Represents store map records) (hnext : store.nextId ≤ unsignedBound)
    (hmem : record ∈ records) : Record.decode record.encode = .ok record :=
  decode_encode_of_readable (hrep.readable record hmem) (Nat.lt_of_lt_of_le (hrep.fresh record hmem) hnext)

theorem get_eq (hrep : Represents store map records) (hnext : store.nextId ≤ unsignedBound) (id : Nat) :
    store.get id = .ok (map.record? id) := by
  unfold RecordStore.get
  cases hget : store.entries.get? id with
  | none =>
      have habsent : map.record? id = none := by
        refine Option.eq_none_iff_forall_ne_some.2 fun record hrecord => ?_
        obtain rfl := ContactMap.id_of_record? hrecord
        have hkey := Assoc.get?_eq_none_iff.1 hget
        rw [hrep.keys] at hkey
        exact hkey (List.mem_map_of_mem ((hrep.live record).2 hrecord))
      rw [habsent]
  | some content =>
      obtain ⟨record, hmem, rfl, rfl⟩ := Record.exists_of_get?_indexed (hrep.entries ▸ hget)
      dsimp only
      rw [hrep.decode_encode hnext hmem, (hrep.live record).1 hmem]
      rfl

theorem list_eq (hrep : Represents store map records) (hnext : store.nextId ≤ unsignedBound) :
    store.list = .ok records := by
  rw [list, hrep.entries, Record.map_snd_indexed]
  exact decodeAll_encode fun record hmem => hrep.decode_encode hnext hmem

theorem create (hrep : Represents store map records) {infos : Members} (now : String) (hreadable : Readable infos) :
    Represents (store.create infos now).1
      ({ map with last := store.nextId }.put { id := store.nextId, infos, inserted := now })
      (records ++ [{ id := store.nextId, infos, inserted := now }]) where
  toAscending := hrep.toAscending.append rfl
  entries := entries_create hrep.entries hrep.toAscending infos now
  last := Nat.lt_succ_self _
  live record := by
    by_cases hid : record.id = store.nextId
    · have hold : record ∉ records := fun hmem => hrep.not_mem (List.mem_map.2 ⟨record, hmem, hid⟩)
      rw [hid, ContactMap.record?_put_self, Option.some.injEq, List.mem_append, List.mem_singleton, eq_comm]
      exact or_iff_right hold
    · have hnew : record ≠ { id := store.nextId, infos, inserted := now } := fun heq => hid (heq ▸ rfl)
      rw [ContactMap.record?_put_of_ne _ hid, List.mem_append, List.mem_singleton]
      exact (or_iff_left hnew).trans (hrep.live record)
  readable record hmem := by
    rcases List.mem_append.1 hmem with hmem | hmem
    · exact hrep.readable record hmem
    · rw [List.mem_singleton.1 hmem]
      exact hreadable

theorem write (hrep : Represents store map records) (hmem : record.id ∈ records.map Record.id)
    (hreadable : Readable record.infos) :
    Represents (store.write record) (map.put record) (replaced record records) where
  toAscending := hrep.toAscending.replaced record
  entries := entries_write hrep.entries hrep.toAscending hmem
  last := hrep.last
  live other := by
    by_cases hid : other.id = record.id
    · rw [hid, ContactMap.record?_put_self, Option.some.injEq]
      constructor
      · intro hother
        exact ((Record.mem_replaced hother).resolve_right fun hkept => hkept.2 hid).symm
      · rintro rfl
        obtain ⟨old, hold, heq⟩ := List.mem_map.1 hmem
        exact List.mem_map.2 ⟨old, hold, if_pos heq⟩
    · rw [ContactMap.record?_put_of_ne _ hid, ← hrep.live other]
      constructor
      · intro hother
        exact ((Record.mem_replaced hother).resolve_left fun heq => hid (heq ▸ rfl)).1
      · intro hother
        exact List.mem_map.2 ⟨other, hother, if_neg hid⟩
  readable other hother := by
    rcases Record.mem_replaced hother with rfl | ⟨hother, -⟩
    · exact hreadable
    · exact hrep.readable other hother

theorem erase (hrep : Represents store map records) (id : Nat) :
    Represents { store with entries := store.entries.erase id } (map.remove id) (records.filter (·.id ≠ id)) where
  toAscending := hrep.toAscending.filter _
  entries := by rw [hrep.entries, Record.erase_indexed]
  last := hrep.last
  live record := by
    rw [List.mem_filter, decide_eq_true_iff]
    by_cases hid : record.id = id
    · rw [hid, ContactMap.record?_remove_self]
      exact ⟨fun hmem => absurd rfl hmem.2, nofun⟩
    · rw [ContactMap.record?_remove_of_ne _ hid, ← hrep.live record]
      exact and_iff_left hid
  readable record hmem := hrep.readable record (List.mem_of_mem_filter hmem)

theorem perform (hrep : Represents store map records) (hnext : store.nextId ≤ unsignedBound) {operation : Operation}
    (hgives : operation.Gives Readable) :
    ∃ map' records', ContactMap.Step map operation map' (store.perform operation).2 ∧
      Represents (store.perform operation).1 map' records' := by
  cases operation with
  | create infos now => exact ⟨_, _, .created infos now hrep.last, hrep.create now (hgives infos rfl)⟩
  | get id =>
      rw [RecordStore.perform, hrep.get_eq hnext]
      exact ⟨map, records, .got map id, hrep⟩
  | update id infos =>
      rw [RecordStore.perform, RecordStore.update, hrep.get_eq hnext]
      cases hfound : map.record? id with
      | none => exact ⟨map, records, .unknown infos hfound, hrep⟩
      | some record =>
          have hid := ContactMap.id_of_record? hfound
          have hmem : record ∈ records := (hrep.live record).2 (hid.symm ▸ hfound)
          exact ⟨_, _, .updated infos hfound, hrep.write (List.mem_map.2 ⟨record, hmem, rfl⟩) (hgives infos rfl)⟩
  | delete id =>
      rw [perform_delete, hrep.get_eq hnext]
      exact ⟨_, _, .deleted map id, hrep.erase id⟩
  | list =>
      rw [RecordStore.perform, hrep.list_eq hnext]
      exact ⟨map, records, .listed hrep.sorted hrep.live, hrep⟩

end Represents

theorem nextId_le_of_run {operations : List Operation} {operation : Operation}
    (hids : (store.afterAll (operation :: operations)).nextId ≤ unsignedBound) : store.nextId ≤ unsignedBound :=
  Nat.le_trans (nextId_le_afterAll store (operation :: operations)) hids

theorem exists_run (operations : List Operation) (hrep : Represents store map records)
    (hgives : ∀ operation ∈ operations, operation.Gives Readable)
    (hids : (store.afterAll operations).nextId ≤ unsignedBound) :
    ∃ map' records', ContactMap.Run map operations (store.answers operations) map' ∧
      Represents (store.afterAll operations) map' records' := by
  induction operations generalizing store map records with
  | nil => exact ⟨map, records, .nil map, hrep⟩
  | cons operation rest ih =>
      obtain ⟨hfirst, hrest⟩ := List.forall_mem_cons.1 hgives
      obtain ⟨map', records', hstep, hrep'⟩ := hrep.perform (nextId_le_of_run hids) hfirst
      obtain ⟨map'', records'', hrun, hrep''⟩ := ih hrep' hrest hids
      exact ⟨map'', records'', .cons hstep hrun, hrep''⟩

end Represents

end RecordStore

/-! ### Bytes in the order of the numbers -/

/-- The last bytes of a number, the highest first. -/
def bigEndian : Nat → Nat → Bytes
  | 0, _ => []
  | width + 1, n => UInt8.ofNat (n / 256 ^ width) :: bigEndian width (n % 256 ^ width)

theorem bigEndian_lt_iff {width n m : Nat} (hn : n < 256 ^ width) (hm : m < 256 ^ width) :
    bigEndian width n < bigEndian width m ↔ n < m := by
  induction width generalizing n m with
  | zero =>
      rw [Nat.lt_one_iff.1 hn, Nat.lt_one_iff.1 hm]
      exact iff_of_false (List.lt_irrefl _) (Nat.lt_irrefl _)
  | succ width ih =>
      have hpos : 0 < 256 ^ width := Nat.pow_pos (by decide)
      have hfirst : ∀ {k : Nat}, k < 256 ^ (width + 1) → (UInt8.ofNat (k / 256 ^ width)).toNat = k / 256 ^ width := by
        intro k hk
        rw [Nat.pow_succ, Nat.mul_comm] at hk
        exact UInt8.toNat_ofNat_of_lt ((Nat.div_lt_iff_lt_mul hpos).2 hk)
      rw [bigEndian, bigEndian, List.cons_lt_cons_iff, UInt8.lt_iff_toNat_lt, ← UInt8.toNat_inj, hfirst hn, hfirst hm,
        ih (Nat.mod_lt n hpos) (Nat.mod_lt m hpos)]
      -- either the quotients decide, or they are the same and the remainders do
      have hsplit := Nat.div_add_mod n (256 ^ width)
      have hsplit' := Nat.div_add_mod m (256 ^ width)
      have hrem := Nat.mod_lt n hpos
      have hrem' := Nat.mod_lt m hpos
      constructor
      · rintro (hlt | ⟨heq, hlt⟩)
        · have hle := Nat.mul_le_mul_left (256 ^ width) (Nat.succ_le_of_lt hlt)
          rw [Nat.mul_succ] at hle
          omega
        · rw [heq] at hsplit
          omega
      · intro hlt
        rcases (Nat.div_le_div_right hlt.le : n / 256 ^ width ≤ m / 256 ^ width).lt_or_eq with hquot | hquot
        · exact .inl hquot
        · rw [hquot] at hsplit
          exact .inr ⟨hquot, by omega⟩

/-- Under which bytes a record is kept. -/
def recordKey (id : Nat) : Bytes := bigEndian 8 id

section Keys

variable {id other : Nat} (hid : id < unsignedBound) (hother : other < unsignedBound)

include hid hother

theorem recordKey_lt_iff : recordKey id < recordKey other ↔ id < other := bigEndian_lt_iff hid hother

theorem recordKey_inj : recordKey id = recordKey other ↔ id = other := by
  constructor
  · intro heq
    have hlt := (recordKey_lt_iff hid hother).not.1 (heq ▸ List.lt_irrefl _)
    have hgt := (recordKey_lt_iff hother hid).not.1 (heq ▸ List.lt_irrefl _)
    omega
  · exact congrArg recordKey

end Keys

/-! ### A tree of byte strings -/

/-- Byte strings under byte strings, in the order of these, and the next id. -/
structure RecordTree where
  entries : Assoc Bytes Bytes := []
  nextId : Nat := 1

namespace RecordTree

/-- Sets the content at a key, in the place that the order of the keys gives it. -/
def place (key content : Bytes) : Assoc Bytes Bytes → Assoc Bytes Bytes
  | [] => [(key, content)]
  | (k, c) :: rest =>
      if key < k then (key, content) :: (k, c) :: rest
      else if k = key then (key, content) :: rest
      else (k, c) :: place key content rest

def get (tree : RecordTree) (id : Nat) : Except StoreFault (Option Record) :=
  match tree.entries.get? (recordKey id) with
  | none => .ok none
  | some content => (Record.decode content).map some

def write (tree : RecordTree) (record : Record) : RecordTree :=
  { tree with entries := place (recordKey record.id) record.encode tree.entries }

def perform (tree : RecordTree) : Operation → RecordTree × Except StoreFault (List Record)
  | .create infos now =>
      ({ tree with nextId := tree.nextId + 1 }.write { id := tree.nextId, infos, inserted := now },
        .ok [{ id := tree.nextId, infos, inserted := now }])
  | .get id => (tree, (tree.get id).map Option.toList)
  | .update id infos =>
      match tree.get id with
      | .error fault => (tree, .error fault)
      | .ok none => (tree, .error (.notFound id))
      | .ok (some record) => (tree.write { record with infos }, .ok [{ record with infos }])
  | .delete id => ({ tree with entries := tree.entries.erase (recordKey id) }, (tree.get id).map Option.toList)
  | .list => (tree, RecordStore.decodeAll (tree.entries.map Prod.snd))

def answers (tree : RecordTree) : List Operation → List (Except StoreFault (List Record))
  | [] => []
  | operation :: rest => (tree.perform operation).2 :: (tree.perform operation).1.answers rest

def afterAll (tree : RecordTree) (operations : List Operation) : RecordTree :=
  operations.foldl (fun tree operation => (tree.perform operation).1) tree

/-! ### Texts by the bytes of their ids -/

def keyed (entries : Assoc Nat Bytes) : Assoc Bytes Bytes := entries.map fun entry => (recordKey entry.1, entry.2)

section Keyed

variable {entries : Assoc Nat Bytes} (hbound : ∀ k ∈ entries.keys, k < unsignedBound) {id : Nat}
  (hid : id < unsignedBound)

include hbound

theorem pairwise_keyed (hsorted : entries.keys.Pairwise (· < ·)) :
    (keyed entries).Pairwise fun entry later => entry.1 < later.1 := by
  refine List.pairwise_map.2 ((List.pairwise_map.1 hsorted).imp_of_mem fun {entry later} hentry hlater hlt => ?_)
  exact (recordKey_lt_iff (hbound _ (List.mem_map_of_mem hentry)) (hbound _ (List.mem_map_of_mem hlater))).2 hlt

include hid

theorem get?_keyed : (keyed entries).get? (recordKey id) = entries.get? id := by
  induction entries with
  | nil => rfl
  | cons entry rest ih =>
      obtain ⟨hfirst, hrest⟩ := List.forall_mem_cons.1 hbound
      have hkey := recordKey_inj hfirst hid
      change (if recordKey entry.1 = recordKey id then some entry.2 else (keyed rest).get? (recordKey id)) = _
      simp only [hkey, ih hrest]
      rfl

theorem erase_keyed : (keyed entries).erase (recordKey id) = keyed (entries.erase id) := by
  rw [Assoc.erase, Assoc.erase, keyed, keyed, List.filter_map]
  refine congrArg _ (List.filter_congr fun entry hentry => ?_)
  exact decide_eq_decide.2 (recordKey_inj (hbound _ (List.mem_map_of_mem hentry)) hid).not

/-- A key that is there keeps its place, and one above all others goes to the end. -/
theorem place_keyed (hsorted : entries.keys.Pairwise (· < ·)) (hplace : id ∈ entries.keys ∨ ∀ k ∈ entries.keys, k < id)
    (content : Bytes) : place (recordKey id) content (keyed entries) = keyed (entries.insert id content) := by
  induction entries with
  | nil => rfl
  | cons entry rest ih =>
      obtain ⟨hfirst, hrest⟩ := List.forall_mem_cons.1 hbound
      obtain ⟨hbelow, hsorted⟩ := List.pairwise_cons.1 hsorted
      change (if recordKey id < recordKey entry.1 then (recordKey id, content) :: keyed (entry :: rest)
        else if recordKey entry.1 = recordKey id then (recordKey id, content) :: keyed rest
        else (recordKey entry.1, entry.2) :: place (recordKey id) content (keyed rest)) =
          keyed (if entry.1 = id then (entry.1, content) :: rest else entry :: Assoc.insert rest id content)
      simp only [recordKey_lt_iff hid hfirst, recordKey_inj hfirst hid]
      by_cases heq : entry.1 = id
      · rw [if_neg (by omega), if_pos heq, if_pos heq, ← heq]
        rfl
      · have hlater : id ∈ Assoc.keys rest ∨ ∀ k ∈ Assoc.keys rest, k < id :=
          hplace.imp (fun hmem => (List.mem_cons.1 hmem).resolve_left (Ne.symm heq)) fun hall => (List.forall_mem_cons.1 hall).2
        have hlt : entry.1 < id := hplace.elim
          (fun hmem => hbelow id ((List.mem_cons.1 hmem).resolve_left (Ne.symm heq))) fun hall => (List.forall_mem_cons.1 hall).1
        rw [if_neg (by omega), if_neg heq, if_neg heq, ih hrest hsorted hlater]
        rfl

end Keyed

def ofStore (store : RecordStore) : RecordTree where
  entries := keyed store.entries
  nextId := store.nextId

theorem write_ofStore (store : RecordStore) (record : Record) (hbound : ∀ k ∈ store.entries.keys, k < unsignedBound)
    (hsorted : store.entries.keys.Pairwise (· < ·)) (hid : record.id < unsignedBound)
    (hplace : record.id ∈ store.entries.keys ∨ ∀ k ∈ store.entries.keys, k < record.id) :
    (ofStore store).write record = ofStore (store.write record) := by
  have hentries := place_keyed hbound hid hsorted hplace record.encode
  exact congrArg (fun entries => RecordTree.mk entries store.nextId) hentries

theorem get_ofStore {store : RecordStore} (hbound : ∀ k ∈ store.entries.keys, k < unsignedBound) {id : Nat}
    (hid : id < unsignedBound) : (ofStore store).get id = store.get id := by
  have htree : (ofStore store).entries.get? (recordKey id) = store.entries.get? id := get?_keyed hbound hid
  cases hget : store.entries.get? id <;> simp [get, RecordStore.get, htree, hget]

/-- The tree of the texts gives the answer of the store, and stays the tree of its texts. -/
theorem perform_ofStore {store : RecordStore} {map : ContactMap} {records : List Record}
    (hrep : store.Represents map records) {operation : Operation}
    (hnext : (store.perform operation).1.nextId ≤ unsignedBound)
    (hids : ∀ id, operation.id? = some id → id < unsignedBound) :
    (ofStore store).perform operation = (ofStore (store.perform operation).1, (store.perform operation).2) := by
  have hbefore := Nat.le_trans (RecordStore.nextId_le_perform store operation) hnext
  have hbound := hrep.keys_lt hbefore
  cases operation with
  | create infos now =>
      -- the new id is above all keys, so the tree puts the text where the store does, at the end
      have hwrite := write_ofStore { store with nextId := store.nextId + 1 } { id := store.nextId, infos, inserted := now }
        hbound hrep.pairwise_keys hnext (.inr hrep.keys_lt_nextId)
      exact congrArg (·, _) hwrite
  | get id =>
      rw [perform, get_ofStore hbound (hids id rfl)]
      rfl
  | update id infos =>
      rw [perform, RecordStore.perform, RecordStore.update, get_ofStore hbound (hids id rfl), hrep.get_eq hbefore]
      cases hfound : map.record? id with
      | none => rfl
      | some record =>
          obtain rfl := ContactMap.id_of_record? hfound
          have hmem : record.id ∈ store.entries.keys := by
            rw [hrep.keys]
            exact List.mem_map_of_mem ((hrep.live record).2 hfound)
          have hwrite := write_ofStore store { record with infos } hbound hrep.pairwise_keys (hids _ rfl) (.inl hmem)
          exact congrArg (·, _) hwrite
  | delete id =>
      rw [perform, RecordStore.perform_delete, get_ofStore hbound (hids id rfl), ofStore, erase_keyed hbound (hids id rfl)]
      rfl
  | list =>
      rw [perform, RecordStore.perform, RecordStore.list, ofStore, keyed, List.map_map]
      rfl

theorem run_ofStore {store : RecordStore} {map : ContactMap} {records : List Record} (operations : List Operation)
    (hrep : store.Represents map records) (hgives : ∀ operation ∈ operations, operation.Gives RecordStore.Readable)
    (hnext : (store.afterAll operations).nextId ≤ unsignedBound)
    (hids : ∀ operation ∈ operations, ∀ id, operation.id? = some id → id < unsignedBound) :
    (ofStore store).answers operations = store.answers operations ∧
      (ofStore store).afterAll operations = ofStore (store.afterAll operations) := by
  induction operations generalizing store map records with
  | nil => exact ⟨rfl, rfl⟩
  | cons operation rest ih =>
      obtain ⟨hfirst, hrest⟩ := List.forall_mem_cons.1 hgives
      obtain ⟨hid, hids⟩ := List.forall_mem_cons.1 hids
      have hafter : (store.perform operation).1.nextId ≤ unsignedBound :=
        Nat.le_trans (RecordStore.nextId_le_afterAll _ rest) hnext
      obtain ⟨map', records', -, hrep'⟩ := hrep.perform (RecordStore.nextId_le_of_run hnext) hfirst
      have hstep := perform_ofStore hrep hafter hid
      obtain ⟨hanswers, hlast⟩ := ih hrep' hrest hnext hids
      rw [answers, RecordStore.answers, hstep, hanswers]
      refine ⟨rfl, ?_⟩
      change ((ofStore store).perform operation).1.afterAll rest = _
      rw [hstep]
      exact hlast

end RecordTree

namespace RecordStore

/-- The store answers what a map answers, and what a tree of byte strings in the order of its keys does. -/
theorem answers_as_map (operations : List Operation) (hgives : ∀ operation ∈ operations, operation.Gives Readable)
    (hnext : (afterAll {} operations).nextId ≤ unsignedBound) :
    (∃ map, ContactMap.Run {} operations (answers {} operations) map) ∧
    ((∀ operation ∈ operations, ∀ id, operation.id? = some id → id < unsignedBound) →
      RecordTree.answers {} operations = answers {} operations ∧
      (RecordTree.afterAll {} operations).entries.Pairwise fun entry later => entry.1 < later.1) := by
  obtain ⟨map, records, hrun, hrep⟩ := exists_run operations represents_empty hgives hnext
  refine ⟨⟨map, hrun⟩, fun hids => ?_⟩
  obtain ⟨hanswers, hlast⟩ := RecordTree.run_ofStore operations represents_empty hgives hnext hids
  refine ⟨hanswers, ?_⟩
  have hsorted := RecordTree.pairwise_keyed (hrep.keys_lt hnext) hrep.pairwise_keys
  exact congrArg RecordTree.entries hlast ▸ hsorted

def ada : Members := [("name", .str "Ada"), ("age", .int 36)]

def grace : Members := [("name", .str "Grace")]

/-- Operations on two contacts, of which the first is changed and the second removed. -/
def fewOperations : List Operation :=
  [.create ada "2024-05-01T00:00:00Z", .create grace "2024-05-02T00:00:00Z", .update 1 grace, .delete 2, .update 2 ada,
    .create ada "2024-05-03T00:00:00Z", .list]

theorem gives_fewOperations : ∀ operation ∈ fewOperations, operation.Gives Readable := by
  have hada : Readable ada := by
    refine ⟨.obj (by decide) (List.forall_mem_cons.2 ⟨.str _, ?_⟩), by decide, by decide⟩
    exact List.forall_mem_singleton.2 (.int ⟨by decide, by decide⟩)
  have hgrace : Readable grace := ⟨.obj (by decide) (List.forall_mem_singleton.2 (.str _)), by decide, by decide⟩
  simp [fewOperations, Operation.Gives, Operation.infos?, hada, hgrace]

theorem answers_as_map_fewOperations :
    (∃ map, ContactMap.Run {} fewOperations (answers {} fewOperations) map) ∧
    RecordTree.answers {} fewOperations = answers {} fewOperations ∧
    answers {} fewOperations =
      [.ok [{ id := 1, infos := ada, inserted := "2024-05-01T00:00:00Z" }],
        .ok [{ id := 2, infos := grace, inserted := "2024-05-02T00:00:00Z" }],
        .ok [{ id := 1, infos := grace, inserted := "2024-05-01T00:00:00Z" }],
        .ok [{ id := 2, infos := grace, inserted := "2024-05-02T00:00:00Z" }],
        .error (.notFound 2),
        .ok [{ id := 3, infos := ada, inserted := "2024-05-03T00:00:00Z" }],
        .ok [{ id := 1, infos := grace, inserted := "2024-05-01T00:00:00Z" },
          { id := 3, infos := ada, inserted := "2024-05-03T00:00:00Z" }]] := by
  obtain ⟨hmap, htree⟩ := answers_as_map fewOperations gives_fewOperations (by decide +kernel)
  exact ⟨hmap, (htree (by decide)).1, by decide +kernel⟩

end RecordStore

end AddressBook
