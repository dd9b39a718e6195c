import AddressBook.Proofs.Schema.Layout
/-!
# The order in which fields are displayed

Whatever the fields of a schema are, its layout has them in one order only: those with a key come first and in its order,
and fields that the key does not tell apart stay in the order of the document, among them the fields without a key. A list
in that order is found by its first element, which has a least key and is the first in the document that has it, and so
there is no other one.
-/

namespace AddressBook

namespace Schema

namespace Layout

/--
A list has the elements of another one, in the order of a key that may be missing: an element with a key comes before those
without one, the keys do not decrease, and elements with the same key, or without one, are in the order that they had.
-/
structure InOrder {α : Type} (key : α → Option Int64) (elements sorted : List α) : Prop where
  perm : sorted.Perm elements
  keyedFirst : sorted.Pairwise fun a b => (key b).isSome → (key a).isSome
  increasing : sorted.Pairwise fun a b => ∀ m n, key a = some m → key b = some n → m ≤ n
  stable : ∀ key? : Option Int64, (sorted.filter fun a => key a = key?) = elements.filter fun a => key a = key?

/-- A layout names the first field marked as primary key, all fields by their sort keys, and those with a main attribute by it. -/
structure Displays (layout : Layout) (fields : List Field) : Prop where
  primaryKey : ∀ name, layout.primaryKey = some name ↔ ∃ before field after, fields = before ++ field :: after ∧
    (∀ earlier ∈ before, earlier.primaryKey = false) ∧ field.primaryKey = true ∧ field.name = name
  attributes : ∃ sorted, InOrder Field.sortKey fields sorted ∧ layout.attributes = sorted.map Field.name
  mainAttributes : ∃ sorted, InOrder Field.mainAttribute (fields.filter fun field => field.mainAttribute ≠ none) sorted ∧
    layout.mainAttributes = sorted.map Field.name

variable {α : Type} {key : α → Option Int64} {elements sorted other : List α} {a b : Option Int64}

/-! ### Keys -/

theorem keyLE_iff : keyLE a b = true ↔ (b.isSome → a.isSome) ∧ ∀ m n, a = some m → b = some n → m ≤ n := by
  cases a <;> cases b <;> simp [keyLE]

theorem keyLE_antisymm (hab : keyLE a b = true) (hba : keyLE b a = true) : a = b := by
  cases a <;> cases b <;> simp_all only [keyLE, decide_eq_true_eq, reduceCtorEq]
  rw [Int64.le_antisymm hab hba]

theorem pairwise_keyLE_iff : (sorted.Pairwise fun a b => keyLE (key a) (key b) = true) ↔
    (sorted.Pairwise fun a b => (key b).isSome → (key a).isSome) ∧
      sorted.Pairwise fun a b => ∀ m n, key a = some m → key b = some n → m ≤ n := by
  simp only [keyLE_iff, List.pairwise_and_iff]

/-! ### The order is the only one -/

theorem inOrder_mergeSort (key : α → Option Int64) (elements : List α) :
    InOrder key elements (elements.mergeSort fun a b => keyLE (key a) (key b)) := by
  have htrans : ∀ a b c : α, keyLE (key a) (key b) = true → keyLE (key b) (key c) = true → keyLE (key a) (key c) = true :=
    fun a b c => keyLE_trans (key a) (key b) (key c)
  have htotal : ∀ a b : α, (keyLE (key a) (key b) || keyLE (key b) (key a)) = true := fun a b => keyLE_total (key a) (key b)
  have hperm := List.mergeSort_perm elements fun a b => keyLE (key a) (key b)
  obtain ⟨hkeyed, hincreasing⟩ := pairwise_keyLE_iff.1 (List.pairwise_mergeSort htrans htotal elements)
  refine ⟨hperm, hkeyed, hincreasing, fun key? => ?_⟩
  -- elements with one key are sorted already, so the sort keeps them as they are
  have hkept : (elements.filter fun a => key a = key?).Sublist (elements.mergeSort fun a b => keyLE (key a) (key b)) := by
    refine List.sublist_mergeSort htrans htotal ?_ List.filter_sublist
    refine List.pairwise_of_forall_mem_list fun a ha b hb => ?_
    rw [of_decide_eq_true (List.mem_filter.1 ha).2, of_decide_eq_true (List.mem_filter.1 hb).2]
    simpa using keyLE_total key? key?
  have hfiltered := hkept.filter fun a => key a = key?
  simp only [List.filter_filter, Bool.and_self] at hfiltered
  exact (hfiltered.eq_of_length (hperm.filter _).length_eq.symm).symm

theorem mem_of_filter_eq (hsame : ∀ key? : Option Int64,
    (sorted.filter fun a => key a = key?) = other.filter fun a => key a = key?) {a : α} (hmem : a ∈ sorted) : a ∈ other := by
  have hown : a ∈ sorted.filter fun b => key b = key a := List.mem_filter.2 ⟨hmem, decide_eq_true rfl⟩
  rw [hsame] at hown
  exact List.mem_of_mem_filter hown

/-- Sorted lists are the same if they have the same elements of each key in the same order. -/
theorem eq_of_filter_eq (hsorted : sorted.Pairwise fun a b => keyLE (key a) (key b) = true)
    (hother : other.Pairwise fun a b => keyLE (key a) (key b) = true)
    (hsame : ∀ key? : Option Int64, (sorted.filter fun a => key a = key?) = other.filter fun a => key a = key?) :
    sorted = other := by
  induction hsorted generalizing other with
  | nil =>
      refine (List.eq_nil_iff_forall_not_mem.2 fun b hb => ?_).symm
      exact absurd (mem_of_filter_eq (fun key? => (hsame key?).symm) hb) List.not_mem_nil
  | @cons a rest hfirst _ ih =>
      cases hother with
      | nil => exact absurd (mem_of_filter_eq hsame List.mem_cons_self) List.not_mem_nil
      | @cons b others hleast hothers =>
          -- each of the two first elements has a least key, so they have the same one
          have hkeys : key a = key b := by
            have hrefl : keyLE (key a) (key a) = true := by simpa using keyLE_total (key a) (key a)
            refine keyLE_antisymm ?_ ?_
            · rcases List.mem_cons.1 (mem_of_filter_eq (fun key? => (hsame key?).symm) List.mem_cons_self) with rfl | hb
              · exact hrefl
              · exact hfirst b hb
            · rcases List.mem_cons.1 (mem_of_filter_eq hsame List.mem_cons_self) with rfl | ha
              · exact hrefl
              · exact hleast a ha
          have hheads := hsame (key a)
          simp only [List.filter_cons, ← hkeys, decide_true, if_true] at hheads
          obtain ⟨rfl, -⟩ := List.cons.inj hheads
          refine congrArg (a :: ·) (ih hothers fun key? => ?_)
          have htails := hsame key?
          by_cases hkey : key a = key?
          · simpa [List.filter_cons, hkey] using htails
          · simpa [List.filter_cons, hkey] using htails

theorem inOrder_iff : InOrder key elements sorted ↔ sorted = elements.mergeSort fun a b => keyLE (key a) (key b) := by
  constructor
  · intro horder
    have hsort := inOrder_mergeSort key elements
    refine eq_of_filter_eq (pairwise_keyLE_iff.2 ⟨horder.keyedFirst, horder.increasing⟩)
      (pairwise_keyLE_iff.2 ⟨hsort.keyedFirst, hsort.increasing⟩) fun key? => ?_
    rw [horder.stable, hsort.stable]
  · rintro rfl
    exact inOrder_mergeSort key elements

end Layout

/-! ### The layout of a schema -/

theorem primaryKey?_eq_some_iff {schema : Schema} {field : Field} : schema.primaryKey? = some field ↔
    ∃ before after, schema.fields = before ++ field :: after ∧ (∀ earlier ∈ before, earlier.primaryKey = false) ∧
      field.primaryKey = true := by
  rw [primaryKey?, List.find?_eq_some_iff_append]
  simp only [Bool.not_eq_true']
  constructor
  · rintro ⟨hmarked, before, after, hfields, hbefore⟩
    exact ⟨before, after, hfields, hbefore, hmarked⟩
  · rintro ⟨before, after, hfields, hbefore, hmarked⟩
    exact ⟨hmarked, before, after, hfields, hbefore⟩

theorem layout_primaryKey_eq_some_iff {schema : Schema} {name : String} :
    schema.layout.primaryKey = some name ↔ ∃ before field after,
      schema.fields = before ++ field :: after ∧ (∀ earlier ∈ before, earlier.primaryKey = false) ∧
        field.primaryKey = true ∧ field.name = name := by
  simp only [Schema.layout, Option.map_eq_some_iff, primaryKey?_eq_some_iff]
  constructor
  · rintro ⟨field, ⟨before, after, hfields, hbefore, hmarked⟩, hname⟩
    exact ⟨before, field, after, hfields, hbefore, hmarked, hname⟩
  · rintro ⟨before, field, after, hfields, hbefore, hmarked, hname⟩
    exact ⟨field, ⟨before, after, hfields, hbefore, hmarked⟩, hname⟩

/-- The layout sorts the fields by their keys, in the order of the document where those are equal or missing. -/
theorem layout_eq_iff_displays (schema : Schema) (layout : Layout) :
    schema.layout = layout ↔ layout.Displays schema.fields := by
  have hkeyed : (schema.fields.filter fun field => field.mainAttribute ≠ none) =
      schema.fields.filter fun field => field.mainAttribute.isSome :=
    List.filter_congr fun field _ => by cases field.mainAttribute <;> rfl
  constructor
  · rintro rfl
    refine ⟨fun name => layout_primaryKey_eq_some_iff, ⟨_, Layout.inOrder_mergeSort Field.sortKey schema.fields, rfl⟩, ?_⟩
    rw [hkeyed]
    exact ⟨_, Layout.inOrder_mergeSort Field.mainAttribute _, rfl⟩
  · intro hdisplays
    obtain ⟨byKey, hbyKey, hattributes⟩ := hdisplays.attributes
    obtain ⟨byRank, hbyRank, hmainAttributes⟩ := hdisplays.mainAttributes
    rw [hkeyed] at hbyRank
    have hmarked : schema.layout.primaryKey = layout.primaryKey :=
      Option.ext fun name => layout_primaryKey_eq_some_iff.trans (hdisplays.primaryKey name).symm
    rw [Layout.inOrder_iff.1 hbyKey] at hattributes
    rw [Layout.inOrder_iff.1 hbyRank] at hmainAttributes
    obtain ⟨primaryKey, attributes, mainAttributes⟩ := layout
    dsimp only at hmarked hattributes hmainAttributes
    rw [hattributes, hmainAttributes, ← hmarked]
    rfl

end Schema

end AddressBook
