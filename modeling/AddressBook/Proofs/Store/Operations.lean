import AddressBook.Proofs.Outcome
import AddressBook.Proofs.Store.Records
/-!
# Operations that fail

An operation of the record store that fails should leave the records as they are. All but one do so: a removal takes the
text of a record away before it reads it, so that a record whose infos nest too deep is lost by the removal that can not
answer it. Which records a store holds is an invariant of its operations, so this is said of every store that operations
lead to from the empty one.
-/

namespace AddressBook

open Json (depthLimit unsignedBound)

namespace RecordStore

/-- An operation of the store, with what it is given. -/
inductive Operation where
  | create (infos : Members) (now : String)
  | get (id : Nat)
  | update (id : Nat) (infos : Members)
  | delete (id : Nat)
  | list
deriving DecidableEq

namespace Operation

/-- The infos that an operation stores. -/
def infos? : Operation → Option Members
  | create infos _ | update _ infos => some infos
  | get _ | delete _ | list => none

/-- The infos that an operation stores have a property. -/
def Gives (P : Members → Prop) (operation : Operation) : Prop := ∀ infos, operation.infos? = some infos → P infos

end Operation

/-- The store after an operation, and the records that are answered. -/
def perform (store : RecordStore) : Operation → RecordStore × Except StoreFault (List Record)
  | .create infos now => ((store.create infos now).1, .ok [(store.create infos now).2])
  | .get id => (store, (store.get id).map Option.toList)
  | .update id infos => ((store.update id infos).1, (store.update id infos).2.map ([·]))
  | .delete id => ((store.delete id).1, (store.delete id).2.map Option.toList)
  | .list => (store, store.list)

def afterAll (store : RecordStore) (operations : List Operation) : RecordStore :=
  operations.foldl (fun store operation => (store.perform operation).1) store

/-- If the operation fails, it leaves the store as it is. -/
def Keeps (store : RecordStore) (operation : Operation) : Prop :=
  ∀ fault, (store.perform operation).2 = .error fault → (store.perform operation).1 = store

variable {store : RecordStore} {operation : Operation} {P : Members → Prop} {id : Nat} {fault : StoreFault}

/-! ### Failing -/

theorem get_eq_error_iff : store.get id = .error fault ↔
    ∃ content, store.entries.get? id = some content ∧ Record.decode content = .error fault := by
  unfold RecordStore.get
  cases store.entries.get? id with
  | none => simp
  | some content => simp [Except.map_eq_error_iff]

theorem update_of_error {infos : Members} (hfails : (store.update id infos).2 = .error fault) :
    (store.update id infos).1 = store := by
  unfold update at hfails ⊢
  cases hget : store.get id with
  | error => rfl
  | ok found =>
      cases found with
      | none => rfl
      | some record => simp [hget] at hfails

theorem perform_delete (store : RecordStore) (id : Nat) : store.perform (.delete id) =
    ({ store with entries := store.entries.erase id }, (store.get id).map Option.toList) := by
  rw [perform, delete_eq]

/-- Only a removal can fail and change something. -/
theorem keeps_of_delete (hdelete : ∀ id fault, operation = .delete id → store.get id ≠ .error fault) :
    store.Keeps operation := by
  intro fault hfails
  cases operation with
  | create infos now => nomatch hfails
  | get id | list => rfl
  | update id infos => exact update_of_error (Except.map_eq_error_iff.1 hfails)
  | delete id =>
      rw [perform_delete] at hfails
      exact absurd (Except.map_eq_error_iff.1 hfails) (hdelete id fault rfl)

/-! ### Stored records -/

/-- Every stored text is that of a record with its id, whose infos have a property. -/
def HoldsOnly (P : Members → Prop) (store : RecordStore) : Prop :=
  ∀ id content, store.entries.get? id = some content →
    ∃ record : Record, record.id = id ∧ record.id < store.nextId ∧ P record.infos ∧ content = record.encode

theorem HoldsOnly.write (hholds : HoldsOnly P store) {record : Record} (hid : record.id < store.nextId)
    (hinfos : P record.infos) : HoldsOnly P (store.write record) := by
  intro id content hget
  by_cases hsame : id = record.id
  · subst hsame
    rw [RecordStore.write, Assoc.get?_insert_self, Option.some.injEq] at hget
    exact ⟨record, rfl, hid, hinfos, hget.symm⟩
  · rw [RecordStore.write, Assoc.get?_insert_of_ne _ _ hsame] at hget
    exact hholds id content hget

theorem HoldsOnly.mono (hholds : HoldsOnly P store) {store' : RecordStore} (hnext : store.nextId ≤ store'.nextId)
    (hentries : ∀ id content, store'.entries.get? id = some content → store.entries.get? id = some content) :
    HoldsOnly P store' := by
  intro id content hget
  obtain ⟨record, hid, hlt, hinfos, hcontent⟩ := hholds id content (hentries id content hget)
  exact ⟨record, hid, Nat.lt_of_lt_of_le hlt hnext, hinfos, hcontent⟩

theorem get?_of_get?_erase {content : Text.Bytes} {other : Nat}
    (hget : (store.entries.erase id).get? other = some content) : store.entries.get? other = some content := by
  by_cases hsame : other = id
  · subst hsame
    rw [Assoc.get?_erase_self] at hget
    nomatch hget
  · rwa [Assoc.get?_erase_of_ne _ hsame] at hget

theorem nextId_le_perform (store : RecordStore) (operation : Operation) :
    store.nextId ≤ (store.perform operation).1.nextId := by
  cases operation with
  | create infos now => exact Nat.le_succ _
  | get id | list => exact Nat.le_refl _
  | update id infos =>
      rw [perform, update]
      split <;> exact Nat.le_refl _
  | delete id =>
      rw [perform_delete]

theorem nextId_le_afterAll (store : RecordStore) (operations : List Operation) :
    store.nextId ≤ (store.afterAll operations).nextId := by
  induction operations generalizing store with
  | nil => exact Nat.le_refl _
  | cons operation rest ih => exact Nat.le_trans (nextId_le_perform store operation) (ih _)

section Reads

variable (hwell : ∀ infos, P infos → (Json.obj infos).WellFormed) (hnext : store.nextId ≤ unsignedBound)

include hwell hnext

theorem HoldsOnly.get_eq (hholds : HoldsOnly P store) {content : Text.Bytes}
    (hget : store.entries.get? id = some content) :
    ∃ record : Record, record.id = id ∧ record.id < store.nextId ∧ P record.infos ∧ content = record.encode ∧
      store.get id = if record.depth < depthLimit then .ok (some record.readBack) else .error .serialization := by
  obtain ⟨record, hid, hlt, hinfos, rfl⟩ := hholds id content hget
  refine ⟨record, hid, hlt, hinfos, rfl, ?_⟩
  rw [RecordStore.get, hget]
  change (Record.decode record.encode).map some = _
  rw [Record.decode_encode (hwell _ hinfos) (Nat.lt_of_lt_of_le hlt hnext)]
  split <;> rfl

theorem HoldsOnly.id_of_get (hholds : HoldsOnly P store) {record : Record} (hrecord : store.get id = .ok (some record)) :
    record.id = id ∧ id < store.nextId := by
  cases hget : store.entries.get? id with
  | none => simp [RecordStore.get, hget] at hrecord
  | some content =>
      obtain ⟨stored, rfl, hlt, -, -, hread⟩ := hholds.get_eq hwell hnext hget
      rw [hread] at hrecord
      split at hrecord
      · obtain rfl := Option.some.inj (Except.ok.inj hrecord)
        exact ⟨rfl, hlt⟩
      · cases hrecord

theorem HoldsOnly.perform (hholds : HoldsOnly P store) (hgives : operation.Gives P) :
    HoldsOnly P (store.perform operation).1 := by
  cases operation with
  | create infos now =>
      have hlater : HoldsOnly P { store with nextId := store.nextId + 1 } := hholds.mono (Nat.le_succ _) fun _ _ => id
      exact hlater.write (Nat.lt_succ_self _) (hgives infos rfl)
  | get id | list => exact hholds
  | update id infos =>
      rw [RecordStore.perform, update]
      split
      · exact hholds
      · exact hholds
      · rename_i record hrecord
        obtain ⟨rfl, hlt⟩ := hholds.id_of_get hwell hnext hrecord
        exact hholds.write hlt (hgives infos rfl)
  | delete id =>
      rw [perform_delete]
      exact hholds.mono (Nat.le_refl _) fun _ _ => get?_of_get?_erase

end Reads

theorem holdsOnly_afterAll (hwell : ∀ infos, P infos → (Json.obj infos).WellFormed) (operations : List Operation)
    (hgives : ∀ operation ∈ operations, operation.Gives P) (hholds : HoldsOnly P store)
    (hids : (store.afterAll operations).nextId ≤ unsignedBound) : HoldsOnly P (store.afterAll operations) := by
  induction operations generalizing store with
  | nil => exact hholds
  | cons operation rest ih =>
      obtain ⟨hfirst, hrest⟩ := List.forall_mem_cons.1 hgives
      -- ids only grow, so the first ones fit if the last one does
      have hnext : store.nextId ≤ unsignedBound := Nat.le_trans (nextId_le_afterAll store (operation :: rest)) hids
      exact ih hrest (hholds.perform hwell hnext hfirst) hids

theorem holdsOnly_empty : HoldsOnly P {} := fun _ _ hget => nomatch hget

/-! ### Removals that lose a record -/

/-- The operation removes a record whose infos nest too deep for its text to be read. -/
def DeletesDeep (store : RecordStore) (operation : Operation) : Prop :=
  ∃ record : Record, operation = .delete record.id ∧ store.entries.get? record.id = some record.encode ∧
    (Json.obj record.infos).WellFormed ∧ depthLimit ≤ record.depth

theorem HoldsOnly.perform_of_deletesDeep (hholds : HoldsOnly P store) (hnext : store.nextId ≤ unsignedBound)
    (hdeep : store.DeletesDeep operation) : ∃ id, operation = .delete id ∧ (store.entries.get? id).isSome ∧
      store.perform operation = ({ store with entries := store.entries.erase id }, .error .serialization) := by
  obtain ⟨record, rfl, hget, hinfos, hdepth⟩ := hdeep
  refine ⟨record.id, rfl, hget ▸ rfl, ?_⟩
  obtain ⟨stored, hid, hlt, -⟩ := hholds record.id _ hget
  have hdecode := Record.decode_encode hinfos (hid ▸ Nat.lt_of_lt_of_le hlt hnext)
  rw [if_neg (Nat.not_lt_of_le hdepth)] at hdecode
  rw [perform_delete, get_eq_error_iff.2 ⟨_, hget, hdecode⟩]
  rfl

theorem HoldsOnly.exists_of_error (hwell : ∀ infos, P infos → (Json.obj infos).WellFormed)
    (hholds : HoldsOnly P store) (hnext : store.nextId ≤ unsignedBound) (hfails : store.get id = .error fault) :
    ∃ record : Record, record.id = id ∧ P record.infos ∧ store.entries.get? record.id = some record.encode ∧
      depthLimit ≤ record.depth := by
  obtain ⟨content, hget, -⟩ := get_eq_error_iff.1 hfails
  obtain ⟨record, rfl, -, hinfos, rfl, hread⟩ := hholds.get_eq hwell hnext hget
  refine ⟨record, rfl, hinfos, hget, Nat.le_of_not_lt fun hdepth => ?_⟩
  rw [hread, if_pos hdepth] at hfails
  nomatch hfails

/-- An operation that fails changes nothing, unless it removes a record that nests too deep to be read. -/
theorem keeps_iff_not_deletesDeep (operations : List Operation)
    (hgives : ∀ operation ∈ operations, operation.Gives fun infos => (Json.obj infos).WellFormed)
    (hids : (afterAll {} operations).nextId ≤ unsignedBound) (operation : Operation) :
    ((afterAll {} operations).Keeps operation ↔ ¬ (afterAll {} operations).DeletesDeep operation) ∧
    ((afterAll {} operations).DeletesDeep operation → ∃ id, operation = .delete id ∧
      (afterAll {} operations).perform operation =
        ({ afterAll {} operations with entries := (afterAll {} operations).entries.erase id }, .error .serialization)) ∧
    ((∀ operation ∈ operations, operation.Gives fun infos => (Json.obj infos).depth ≤ 126) →
      (afterAll {} operations).Keeps operation) := by
  have hholds := holdsOnly_afterAll (fun _ hinfos => hinfos) operations hgives holdsOnly_empty hids
  refine ⟨⟨?lost, ?kept⟩, ?fails, ?shallow⟩
  case lost =>
    intro hkeeps hdeep
    obtain ⟨id, rfl, hsome, hperform⟩ := hholds.perform_of_deletesDeep hids hdeep
    have hsame := hkeeps .serialization (congrArg Prod.snd hperform)
    rw [hperform] at hsame
    rw [← hsame, Assoc.get?_erase_self] at hsome
    nomatch hsome
  case kept =>
    intro hshallow
    refine keeps_of_delete fun id fault hdelete hfails => hshallow ?_
    obtain ⟨record, rfl, hinfos, hget, hdepth⟩ := hholds.exists_of_error (fun _ hinfos => hinfos) hids hfails
    exact ⟨record, hdelete, hget, hinfos, hdepth⟩
  case fails =>
    intro hdeep
    obtain ⟨id, hdelete, -, hperform⟩ := hholds.perform_of_deletesDeep hids hdeep
    exact ⟨id, hdelete, hperform⟩
  case shallow =>
    intro hshallow
    have hboth : ∀ operation ∈ operations, operation.Gives fun infos =>
        (Json.obj infos).WellFormed ∧ (Json.obj infos).depth ≤ 126 :=
      fun operation hmem infos hinfos => ⟨hgives operation hmem infos hinfos, hshallow operation hmem infos hinfos⟩
    have hholdsShallow := holdsOnly_afterAll (fun _ => And.left) operations hboth holdsOnly_empty hids
    refine keeps_of_delete fun id fault _ hfails => ?_
    obtain ⟨record, rfl, ⟨-, hdepth⟩, -, hdeep⟩ := hholdsShallow.exists_of_error (fun _ => And.left) hids hfails
    exact absurd (Nat.le_trans hdeep hdepth) (by decide)

/-- Arrays in arrays, so many deep. -/
def nestedArrays : Nat → Json
  | 0 => .null
  | levels + 1 => .arr [nestedArrays levels]

theorem depth_nestedArrays (levels : Nat) : (nestedArrays levels).depth = levels := by
  induction levels with
  | zero => rfl
  | succ levels ih => rw [nestedArrays, Json.depth, Json.depthOfItems, ih, Json.depthOfItems, Nat.max_zero]

theorem wellFormed_nestedArrays (levels : Nat) : (nestedArrays levels).WellFormed := by
  induction levels with
  | zero => exact .null
  | succ levels ih => exact .arr (List.forall_mem_singleton.2 ih)

/-- A record that nests as deep as a text may. -/
def deepRecord : Record := { id := 2, infos := [("name", nestedArrays 126)], inserted := "2024-05-01T00:00:00Z" }

theorem wellFormed_deepRecord : (Json.obj deepRecord.infos).WellFormed :=
  .obj (by decide) (List.forall_mem_singleton.2 (wellFormed_nestedArrays 126))

theorem depth_deepRecord : deepRecord.depth = depthLimit := by
  change (Json.obj [("name", nestedArrays 126)]).depth = depthLimit
  rw [Json.depth, Json.depthOfMembers, depth_nestedArrays]
  rfl

def firstCreate : Operation := .create [("name", .str "Ada")] "2024-04-30T00:00:00Z"

def deepCreate : Operation := .create deepRecord.infos deepRecord.inserted

theorem gives_creates : ∀ operation ∈ [firstCreate, deepCreate],
    operation.Gives fun infos => (Json.obj infos).WellFormed := by
  simp only [List.forall_mem_cons]
  refine ⟨?_, ?_, nofun⟩
  · rintro _ ⟨⟩
    exact .obj (by decide) (List.forall_mem_singleton.2 (.str _))
  · rintro _ ⟨⟩
    exact wellFormed_deepRecord

theorem keeps_iff_not_deletesDeep_creates :
    (afterAll {} [firstCreate]).Keeps (.delete 1) ∧ ¬ (afterAll {} [firstCreate, deepCreate]).Keeps (.delete 2) := by
  constructor
  · have hgives := (List.forall_mem_cons.1 gives_creates).1
    refine (keeps_iff_not_deletesDeep [firstCreate] (List.forall_mem_singleton.2 hgives) (by decide) _).2.2 ?_
    refine List.forall_mem_singleton.2 ?_
    rintro _ ⟨⟩
    decide
  · refine fun hkeeps => (keeps_iff_not_deletesDeep _ gives_creates (by decide) _).1.1 hkeeps ?_
    exact ⟨deepRecord, rfl, rfl, wellFormed_deepRecord, depth_deepRecord.ge⟩

theorem delete_deepRecord :
    ((afterAll {} [firstCreate, deepCreate]).perform (.delete 2)).2 = .error .serialization ∧
    (afterAll {} [firstCreate, deepCreate]).entries.keys = [1, 2] ∧
    ((afterAll {} [firstCreate, deepCreate]).perform (.delete 2)).1.entries.keys = [1] := by
  have hdecode := Record.decode_encode wellFormed_deepRecord (by decide)
  rw [depth_deepRecord, if_neg (Nat.lt_irrefl _)] at hdecode
  have hget : (afterAll {} [firstCreate, deepCreate]).get 2 = .error .serialization :=
    get_eq_error_iff.2 ⟨_, rfl, hdecode⟩
  refine ⟨?_, rfl, rfl⟩
  rw [perform_delete, hget]
  rfl

end RecordStore

end AddressBook
