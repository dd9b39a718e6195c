import AddressBook.Proofs.Schema.DisplayOrder
import AddressBook.Proofs.Schema.Records
import Mathlib.Data.List.Pairwise
/-!
# Documents with their members in another order

The order of the members makes no difference to whether a document is valid, and it makes little to the layout. No two
fields of a valid document have the same key, so a sort by the key leaves no choice: the fields that have one are listed in
one order only. What is left to the order of the members are the places of the fields without a sort key, behind all
others.
-/

namespace AddressBook

open Document (Entry SoundEntries Structured validate)

/-! ### Sorting by distinct keys -/

namespace Schema.Layout

variable {α : Type} {key : α → Option Int64} {elements elements' : List α}

theorem eq_of_key_eq (hdistinct : (elements.filterMap key).Nodup) {a b : α} (ha : a ∈ elements) (hb : b ∈ elements)
    {n : Int64} (hkey : key a = some n) (hsame : key b = some n) : a = b := by
  by_contra hne
  have hsymm : Std.Symm fun a b : α => ∀ m, key a = some m → ∀ n, key b = some n → m ≠ n :=
    ⟨fun _ _ hpair m hm n hn heq => hpair n hn m hm heq.symm⟩
  exact (List.pairwise_filterMap.1 hdistinct).forall ha hb hne n hkey n hsame rfl

/-- Elements with distinct keys are sorted into the same start, whatever their order was. -/
theorem mergeSort_of_perm (hperm : elements'.Perm elements) (hdistinct : (elements.filterMap key).Nodup) :
    ∃ keyed : List α, keyed.Perm (elements.filter fun a => (key a).isSome) ∧
      (elements.mergeSort fun a b => keyLE (key a) (key b)) = keyed ++ elements.filter (fun a => (key a).isNone) ∧
      (elements'.mergeSort fun a b => keyLE (key a) (key b)) = keyed ++ elements'.filter (fun a => (key a).isNone) := by
  obtain ⟨keyed, hkeyed, hsorted, hsort⟩ := mergeSort_keyLE key elements
  obtain ⟨keyed', hkeyed', hsorted', hsort'⟩ := mergeSort_keyLE key elements'
  have hsame : keyed'.Perm keyed := (hkeyed'.trans (hperm.filter _)).trans hkeyed.symm
  refine ⟨keyed, hkeyed, hsort, ?_⟩
  have heq : keyed' = keyed := by
    refine hsame.eq_of_pairwise (fun a b ha hb hab hba => ?_) hsorted' hsorted
    have hmem : ∀ c ∈ keyed, c ∈ elements ∧ (key c).isSome = true := fun c hc => List.mem_filter.1 (hkeyed.subset hc)
    obtain ⟨hmemA, hsome⟩ := hmem a (hsame.subset ha)
    obtain ⟨n, hn⟩ := Option.isSome_iff_exists.1 hsome
    exact eq_of_key_eq hdistinct hmemA (hmem b hb).1 hn (keyLE_antisymm hab hba ▸ hn)
  rw [hsort', heq]

/-- If all elements have keys, the sort gives one list only. -/
theorem mergeSort_filter_of_perm (hperm : elements'.Perm elements) (hdistinct : (elements.filterMap key).Nodup) :
    ((elements'.filter fun a => (key a).isSome).mergeSort fun a b => keyLE (key a) (key b)) =
      (elements.filter fun a => (key a).isSome).mergeSort fun a b => keyLE (key a) (key b) := by
  have hnone : ∀ list : List α, (list.filter fun a => (key a).isSome).filter (fun a => (key a).isNone) = [] := by
    intro list
    simp [List.filter_eq_nil_iff]
  have hkeys : ((elements.filter fun a => (key a).isSome).filterMap key).Nodup :=
    hdistinct.sublist (List.filter_sublist.filterMap key)
  obtain ⟨keyed, -, hsort, hsort'⟩ := mergeSort_of_perm (hperm.filter _) hkeys
  rw [hsort, hsort', hnone, hnone]

end Schema.Layout

/-! ### Schemas of the same fields -/

/--
Two schemas of the same fields have layouts that differ at most in the places of the fields without a sort key: these come
last, in the order of the fields.
-/
structure Schema.DisplayedAlike (schema other : Schema) : Prop where
  fields : other.fields.Perm schema.fields
  primaryKey : other.layout.primaryKey = schema.layout.primaryKey
  mainAttributes : other.layout.mainAttributes = schema.layout.mainAttributes
  attributes : ∃ keyed : List String,
    keyed.Perm ((schema.fields.filter fun field => field.sortKey.isSome).map Field.name) ∧
    schema.layout.attributes = keyed ++ (schema.fields.filter fun field => field.sortKey.isNone).map Field.name ∧
    other.layout.attributes = keyed ++ (other.fields.filter fun field => field.sortKey.isNone).map Field.name

namespace Document

variable {members members' : Members} {schema schema' : Schema} {entries entries' : List Entry}

theorem Structured.displayedAlike (hstructured : Structured members schema) (hstructured' : Structured members' schema')
    (hperm : schema'.fields.Perm schema.fields) : schema.DisplayedAlike schema' where
  fields := hperm
  primaryKey := by
    obtain ⟨key, hkeys, -, hkey⟩ := hstructured.primaryKey
    obtain ⟨key', hkeys', -, hkey'⟩ := hstructured'.primaryKey
    have hsame := hperm.filter (·.primaryKey)
    rw [hkeys, hkeys', List.perm_singleton, List.singleton_inj] at hsame
    rw [Schema.layout, Schema.layout, hkey, hkey', hsame]
  mainAttributes :=
    congrArg (List.map Field.name) (Schema.Layout.mergeSort_filter_of_perm hperm hstructured.mainAttributes)
  attributes := by
    obtain ⟨keyed, hkeyed, hsort, hsort'⟩ := Schema.Layout.mergeSort_of_perm hperm hstructured.sortKeys
    refine ⟨keyed.map Field.name, hkeyed.map Field.name, ?_, ?_⟩
    · rw [Schema.layout, hsort, List.map_append]
    · rw [Schema.layout, hsort', List.map_append]

/-! ### Documents of the same members -/

theorem soundEntries_of_perm (hperm : entries'.Perm entries) (hsound : SoundEntries entries) : SoundEntries entries' where
  named entry hmem := hsound.named entry (hperm.subset hmem)
  primaryKey := by
    obtain ⟨key, hkeys, hrequired⟩ := hasPrimaryKey_iff.1 hsound.primaryKey
    have hsame : (primaryKeys entries').Perm (primaryKeys entries) := hperm.filter _
    rw [hkeys, List.perm_singleton] at hsame
    exact hasPrimaryKey_iff.2 ⟨key, hsame, hrequired⟩
  fields entry hmem := hsound.fields entry (hperm.subset hmem)
  sortKeys := (hperm.pairwise_iff Entry.DifferAt.symm).2 hsound.sortKeys
  mainAttributes := (hperm.pairwise_iff Entry.DifferAt.symm).2 hsound.mainAttributes

theorem exists_entries_of_perm (hperm : members'.Perm (entries.map Entry.member)) :
    ∃ entries' : List Entry, members' = entries'.map Entry.member ∧ entries'.Perm entries := by
  have hmembers : List.Forall₂ (fun member entry => member = Entry.member entry) (entries.map Entry.member) entries :=
    List.forall₂_map_left_iff.2 (List.forall₂_same.2 fun _ _ => rfl)
  obtain ⟨entries', hmembers', hentries⟩ := List.perm_comp_forall₂ hperm hmembers
  refine ⟨entries', ?_, hentries⟩
  rwa [← List.forall₂_map_right_iff (R := Eq), List.forall₂_eq_eq_eq] at hmembers'

theorem validate_of_perm (hperm : members'.Perm members) (hvalid : validate (.obj members) = .ok ()) :
    validate (.obj members') = .ok () := by
  obtain ⟨entries, hentries⟩ := exists_entries_of_validate hvalid
  have hsound := (validate_eq_ok_iff_of_entries hentries).1 hvalid
  rw [Json.obj.inj (entries_eq_ok_iff.1 hentries).1] at hperm
  obtain ⟨entries', rfl, hsame⟩ := exists_entries_of_perm hperm
  have hsound' := soundEntries_of_perm hsame hsound
  exact (validate_eq_ok_iff_of_entries (entries_eq_ok_iff.2 ⟨rfl, hsound'.named⟩)).2 hsound'

/-- With its members in another order a document stays valid, and its sorted fields are shown as before. -/
theorem reordered_displayed_alike (members members' : Members) (hperm : members'.Perm members)
    (hvalid : validate (.obj members) = .ok ()) :
    validate (.obj members') = .ok () ∧ ∃ schema schema', Schema.ofNewDocument (.obj members) = .ok schema ∧
      Schema.ofNewDocument (.obj members') = .ok schema' ∧ schema.DisplayedAlike schema' := by
  have hvalid' := validate_of_perm hperm hvalid
  obtain ⟨all, schema, hdescribes⟩ := exists_describes hvalid
  obtain ⟨all', schema', hdescribes'⟩ := exists_describes hvalid'
  have hfields : schema'.fields.Perm schema.fields := by
    obtain ⟨fields, hloads, rfl⟩ := Except.map_eq_ok_iff.1 hdescribes.loads
    obtain ⟨fields', hloads', rfl⟩ := Except.map_eq_ok_iff.1 hdescribes'.loads
    obtain ⟨reordered, hreordered, hsame⟩ := Schema.exists_fieldsOf_of_perm hperm hloads
    obtain rfl := Except.ok.inj (hloads'.symm.trans hreordered)
    exact hsame
  exact ⟨hvalid', schema, schema', hdescribes.ofNewDocument hvalid, hdescribes'.ofNewDocument hvalid',
    hdescribes.structured.displayedAlike hdescribes'.structured hfields⟩

/-- Members with two sort keys, one of them on a field that comes after a field without any. -/
def contactMembers : Members :=
  [("id", .obj [("type", .str "integer"), ("primary_key", .bool true), ("required", .bool true)]),
   ("firstname", .obj [("type", .str "str"), ("main_attribute", .int 1), ("sort_key", .int 2)]),
   ("lastname", .obj [("type", .str "str"), ("main_attribute", .int 0), ("sort_key", .int 1)])]

theorem reordered_displayed_alike_reversed :
    contactMembers.reverse.Perm contactMembers ∧ validate (.obj contactMembers) = .ok () ∧
    validate (.obj contactMembers.reverse) = .ok () ∧
    ∃ schema schema', Schema.ofNewDocument (.obj contactMembers) = .ok schema ∧
      Schema.ofNewDocument (.obj contactMembers.reverse) = .ok schema' ∧ schema.DisplayedAlike schema' := by
  have hvalid : validate (.obj contactMembers) = .ok () := rfl
  exact ⟨List.reverse_perm _, hvalid, reordered_displayed_alike _ _ (List.reverse_perm _) hvalid⟩

end Document

end AddressBook
