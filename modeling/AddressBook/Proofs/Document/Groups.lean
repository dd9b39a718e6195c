import AddressBook.Schema.Document
import Mathlib.Data.List.Induction
/-!
# Fields that share a value

Validation collects the values of a parameter one field after another, each value with the names of the
fields that have it. Looking a value up among the groups gives the fields with that value in the order of the
document, whatever groups come before it, and no value has two groups. So a group with more than one name is
there exactly when two fields share a value.
-/

namespace AddressBook.Document

/-- The names in the group of a value, none if there is no such group. -/
def namesAt (value : Json) : List Group → List String
  | [] => []
  | group :: rest => if group.value = value then group.names else namesAt value rest

/-- The fields with a value at a parameter, in the order of the document. -/
def holders (key : String) (value : Json) (entries : List Entry) : List Entry :=
  entries.filter fun entry => param? entry.params key = some value

/-! ### Adding a name -/

theorem namesAt_addToGroup (value other : Json) (name : String) (all : List Group) :
    namesAt other (addToGroup value name all) =
      if value = other then namesAt other all ++ [name] else namesAt other all := by
  induction all with
  | nil => by_cases h : value = other <;> simp [addToGroup, namesAt, h]
  | cons group rest ih =>
      by_cases hgroup : group.value = value
      · by_cases hvalue : value = other <;> simp [addToGroup, namesAt, hgroup, hvalue]
      · by_cases hother : group.value = other
        · have hvalue : value ≠ other := fun h => hgroup (hother.trans h.symm)
          simp only [addToGroup, if_neg hgroup, namesAt, if_pos hother, if_neg hvalue]
        · simp [addToGroup, namesAt, hgroup, hother, ih]

theorem values_addToGroup (value : Json) (name : String) (all : List Group) :
    (addToGroup value name all).map Group.value =
      if value ∈ all.map Group.value then all.map Group.value else all.map Group.value ++ [value] := by
  induction all with
  | nil => simp [addToGroup]
  | cons group rest ih =>
      by_cases hgroup : group.value = value
      · simp [addToGroup, hgroup]
      · have hne : ¬ value = group.value := fun h => hgroup h.symm
        simp only [addToGroup, hgroup, if_false, List.map_cons, ih, List.mem_cons, hne, false_or]
        split <;> rfl

theorem namesAt_of_mem {all : List Group} (hnodup : (all.map Group.value).Nodup) {group : Group}
    (hmem : group ∈ all) : namesAt group.value all = group.names := by
  induction all with
  | nil => simp at hmem
  | cons first rest ih =>
      rw [List.map_cons, List.nodup_cons] at hnodup
      rcases List.mem_cons.1 hmem with rfl | hrest
      · simp [namesAt]
      · have hne : first.value ≠ group.value := fun h => hnodup.1 (h ▸ List.mem_map_of_mem hrest)
        rw [namesAt, if_neg hne, ih hnodup.2 hrest]

/-! ### Collecting -/

@[simp] theorem groups_nil (key : String) : groups key [] = [] := rfl

theorem groups_append_singleton (key : String) (entries : List Entry) (entry : Entry) :
    groups key (entries ++ [entry]) =
      match param? entry.params key with
      | none => groups key entries
      | some value => addToGroup value entry.name (groups key entries) := by
  rw [groups, List.foldl_append]
  rfl

theorem nodup_values_groups (key : String) (entries : List Entry) :
    ((groups key entries).map Group.value).Nodup := by
  induction entries using List.reverseRecOn with
  | nil => simp
  | append_singleton entries entry ih =>
      rw [groups_append_singleton]
      split
      · exact ih
      · rename_i value _
        rw [values_addToGroup]
        split
        · exact ih
        · rename_i hnew
          refine List.nodup_append.2 ⟨ih, by simp, ?_⟩
          simpa using hnew

/-- The group of a value has the names of the fields with that value, in the order of the document. -/
theorem namesAt_groups (key : String) (value : Json) (entries : List Entry) :
    namesAt value (groups key entries) = (holders key value entries).map Entry.name := by
  induction entries using List.reverseRecOn with
  | nil => rfl
  | append_singleton entries entry ih =>
      rw [groups_append_singleton, holders, List.filter_append, List.map_append, ← holders, ← ih]
      split
      · rename_i hnone
        simp [hnone]
      · rename_i other hother
        rw [namesAt_addToGroup]
        by_cases hvalue : other = value <;> simp [hother, hvalue]

theorem value_mem_groups_iff {key : String} {value : Json} {entries : List Entry} :
    value ∈ (groups key entries).map Group.value ↔ ∃ entry ∈ entries, param? entry.params key = some value := by
  induction entries using List.reverseRecOn with
  | nil => simp
  | append_singleton entries entry ih =>
      simp only [groups_append_singleton, List.mem_append, List.mem_singleton, or_and_right, exists_or, exists_eq_left, ← ih]
      split
      · rename_i hnone
        simp [hnone]
      · rename_i other hother
        rw [values_addToGroup, hother, Option.some.injEq]
        split
        · rename_i hold
          exact ⟨Or.inl, fun h => h.elim id fun heq => heq ▸ hold⟩
        · simp [eq_comm]

theorem names_of_mem_groups {key : String} {entries : List Entry} {group : Group} (hmem : group ∈ groups key entries) :
    group.names = (holders key group.value entries).map Entry.name := by
  rw [← namesAt_of_mem (nodup_values_groups key entries) hmem, namesAt_groups]

/-! ### Fields without a common value -/

theorem holders_length_le_one_iff {key : String} {entries : List Entry} :
    (∀ value, (holders key value entries).length ≤ 1) ↔
      entries.Pairwise fun entry other => ∀ value, param? entry.params key = some value → param? other.params key ≠ some value := by
  induction entries with
  | nil => simp [holders]
  | cons entry rest ih =>
      rw [List.pairwise_cons, ← ih]
      constructor
      · intro hfew
        refine ⟨fun other hother value hvalue hsame => ?_, fun value => ?_⟩
        · have hlength := hfew value
          have hmem : other ∈ holders key value rest := List.mem_filter.2 ⟨hother, by simpa using hsame⟩
          have hpos := List.length_pos_of_mem hmem
          simp only [holders, List.filter_cons, hvalue, decide_true, if_true, List.length_cons] at hlength hpos
          omega
        · have hsub : (holders key value rest).Sublist (holders key value (entry :: rest)) :=
            (List.sublist_cons_self entry rest).filter _
          exact Nat.le_trans hsub.length_le (hfew value)
      · rintro ⟨hfirst, hrest⟩ value
        by_cases hvalue : param? entry.params key = some value
        · have hnone : holders key value rest = [] := by
            refine List.filter_eq_nil_iff.2 fun other hother => ?_
            simpa using hfirst other hother value hvalue
          rw [holders] at hnone
          simp [holders, hvalue, hnone]
        · simpa [holders, hvalue] using hrest value

theorem distinctRule_eq_ok_iff {key : String} {entries : List Entry} :
    distinctRule key entries = .ok () ↔
      entries.Pairwise fun entry other => ∀ value, param? entry.params key = some value → param? other.params key ≠ some value := by
  have hfind : (groups key entries).find? (1 < ·.names.length) = none ↔
      ∀ value, (holders key value entries).length ≤ 1 := by
    rw [List.find?_eq_none]
    constructor
    · intro hfew value
      by_cases hmem : value ∈ (groups key entries).map Group.value
      · obtain ⟨group, hgroup, rfl⟩ := List.mem_map.1 hmem
        simpa [names_of_mem_groups hgroup] using hfew group hgroup
      · have hnone : holders key value entries = [] := by
          refine List.filter_eq_nil_iff.2 fun entry hentry => ?_
          simpa using fun hsome => hmem (value_mem_groups_iff.2 ⟨entry, hentry, hsome⟩)
        simp [hnone]
    · intro hfew group hgroup
      simpa [names_of_mem_groups hgroup] using hfew group.value
  rw [← holders_length_le_one_iff, ← hfind, distinctRule]
  split <;> simp_all

end AddressBook.Document
