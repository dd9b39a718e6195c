import AddressBook.Proofs.Document.Validation
import AddressBook.Proofs.Json.Shape
import Mathlib.Data.List.Basic
/-!
# Nulls in documents

A parameter that is `null` reads as absent, and so does a constraint. A document without them is validated as it is with
them: not even the fault tells the two apart. This needs distinct keys, since a `null` hides a later value of its key.
-/

namespace AddressBook.Document

variable {params constraints : Members} {key : String}

/-! ### Leaving nulls out -/

/-- The members that are not `null`. -/
def dropNulls (members : Members) : Members := members.filter fun member => !member.2.isNull

/-- What the members of an object are turned into; a value that is no object stays. -/
def mapObject (turn : Members → Members) : Json → Json
  | .obj members => .obj (turn members)
  | value => value

/-- The parameters of a field that are not `null`, and of these the constraints without their own nulls. -/
def pruneParams (params : Members) : Members :=
  (dropNulls params).map fun (key, value) =>
    (key, if key = Parameter.constraints then mapObject dropNulls value else value)

/-- A document without the parameters and the constraints that are `null`. -/
def prune : Json → Json :=
  mapObject fun members => members.map fun (name, params) => (name, mapObject pruneParams params)

def Entry.prune (entry : Entry) : Entry := { entry with params := pruneParams entry.params }

theorem isNull_mapObject (turn : Members → Members) (value : Json) : (mapObject turn value).isNull = value.isNull := by
  cases value <;> rfl

/-! ### Parameters -/

theorem filter_param? (params : Members) (key : String) : (param? params key).filter (!·.isNull) = param? params key := by
  rw [param?, Option.filter_filter]
  simp only [Bool.and_self]

theorem get?_dropNulls (hnodup : constraints.keys.Nodup) (key : String) :
    (dropNulls constraints).get? key = param? constraints key :=
  Assoc.get?_filter hnodup (!·.isNull) key

theorem param?_dropNulls (hnodup : constraints.keys.Nodup) (key : String) :
    param? (dropNulls constraints) key = param? constraints key := by
  rw [param?, get?_dropNulls hnodup, filter_param?]

theorem get?_pruneParams (hnodup : params.keys.Nodup) (key : String) :
    (pruneParams params).get? key = (param? params key).map fun value =>
      if key = Parameter.constraints then mapObject dropNulls value else value := by
  rw [← get?_dropNulls hnodup, pruneParams]
  induction dropNulls params with
  | nil => rfl
  | cons member rest ih =>
      obtain ⟨k, value⟩ := member
      rw [List.map_cons, Assoc.get?, Assoc.get?]
      split
      · rename_i heq
        rw [heq, Option.map_some]
      · exact ih

theorem get?_pruneParams_of_ne (hnodup : params.keys.Nodup) (hkey : key ≠ Parameter.constraints) :
    (pruneParams params).get? key = param? params key := by
  rw [get?_pruneParams hnodup]
  simp only [if_neg hkey, Option.map_id']

theorem param?_pruneParams_of_ne (hnodup : params.keys.Nodup) (hkey : key ≠ Parameter.constraints) :
    param? (pruneParams params) key = param? params key := by
  rw [param?, get?_pruneParams_of_ne hnodup hkey, filter_param?]

theorem get?_pruneParams_constraints (hnodup : params.keys.Nodup) :
    (pruneParams params).get? Parameter.constraints =
      (param? params Parameter.constraints).map (mapObject dropNulls) := by
  rw [get?_pruneParams hnodup]
  simp only [if_true]

theorem param?_pruneParams_constraints (hnodup : params.keys.Nodup) :
    param? (pruneParams params) Parameter.constraints =
      (param? params Parameter.constraints).map (mapObject dropNulls) := by
  rw [param?, get?_pruneParams_constraints hnodup]
  cases hparam : param? params Parameter.constraints with
  | none => rfl
  | some value =>
      have hnull : (!value.isNull) = true := (Option.filter_eq_some_iff.1 hparam).2
      rw [Option.map_some, Option.filter_some, isNull_mapObject, if_pos hnull]

theorem isTrue_pruneParams (hnodup : params.keys.Nodup) (hkey : key ≠ Parameter.constraints) :
    isTrue (pruneParams params) key = isTrue params key := by
  rw [Bool.eq_iff_iff, isTrue_iff, isTrue_iff, has_iff, has_iff, param?_pruneParams_of_ne hnodup hkey]

/-! ### Constraints -/

theorem kindRule_dropNulls {constraints : Option Members} (hnodup : ∀ own, constraints = some own → own.keys.Nodup)
    (name : String) (kind : Kind) :
    kindRule name (constraints.map dropNulls) kind = kindRule name constraints kind := by
  cases constraints with
  | none => rfl
  | some own =>
      have hparam := param?_dropNulls (hnodup own rfl)
      cases kind with
      | list => simp only [kindRule, Option.map_some, listRule, neededConstraints, bind, Except.bind, hparam]
      | select => simp only [kindRule, Option.map_some, selectRule, neededConstraints, bind, Except.bind, hparam]
      | image => simp only [kindRule, Option.map_some, imageRule, hparam]
      | toggle => simp only [kindRule, Option.map_some, toggleRule, hparam]
      | integer | str | longStr | url | email => rfl

/-! ### Fields -/

namespace Entry

variable {entry : Entry}

theorem kindName_prune (hnodup : entry.params.keys.Nodup) : kindName entry.prune = kindName entry := by
  rw [kindName, prune, param?_pruneParams_of_ne hnodup (by decide)]
  rfl

theorem typeRules_prune (hnodup : entry.params.keys.Nodup) {rules : List (String × ParameterType)}
    (hrules : ∀ rule ∈ rules, rule.1 = Parameter.constraints → rule.2 = .object) :
    typeRules entry.prune rules = typeRules entry rules := by
  induction rules with
  | nil => rfl
  | cons rule rest ih =>
      obtain ⟨key, expected⟩ := rule
      obtain ⟨hfirst, hrest⟩ := List.forall_mem_cons.1 hrules
      rw [typeRules, typeRules, ih hrest]
      by_cases hkey : key = Parameter.constraints
      · -- Only an object loses nulls, and no object breaks this rule.
        obtain rfl : expected = .object := hfirst hkey
        rw [hkey, prune, param?_pruneParams_constraints hnodup]
        cases param? entry.params Parameter.constraints with
        | none => rfl
        | some value => cases value <;> rfl
      · rw [prune, param?_pruneParams_of_ne hnodup hkey]

theorem fieldRules_prune (hwell : (Json.obj entry.params).WellFormed) : fieldRules entry.prune = fieldRules entry := by
  have hnodup := hwell.nodup_keys
  have hconstraints : (param? entry.prune.params Parameter.constraints).bind Json.asObject? =
      ((param? entry.params Parameter.constraints).bind Json.asObject?).map dropNulls := by
    rw [prune, param?_pruneParams_constraints hnodup]
    cases param? entry.params Parameter.constraints with
    | none => rfl
    | some value => cases value <;> rfl
  have hown : ∀ own, (param? entry.params Parameter.constraints).bind Json.asObject? = some own → own.keys.Nodup :=
    fun own hget => (hwell.member (Assoc.mem_of_get?_eq_some (bind_asObject?_eq_some_iff.1 hget).1)).nodup_keys
  rw [fieldRules, fieldRules, kindName_prune hnodup, typeRules_prune hnodup (by decide), hconstraints]
  simp only [kindRule_dropNulls hown]
  rfl

theorem textRule_prune (hnodup : entry.params.keys.Nodup) {key : String} (hkey : key ≠ Parameter.constraints) :
    textRule entry.prune key = textRule entry key := by
  rw [textRule, prune, param?_pruneParams_of_ne hnodup hkey]
  rfl

end Entry

/-! ### Documents -/

theorem forEach_congr {rule : Entry → Except DocumentFault Unit} {turn : Entry → Entry} {entries : List Entry}
    (hrule : ∀ entry ∈ entries, rule (turn entry) = rule entry) :
    forEach rule (entries.map turn) = forEach rule entries := by
  induction entries with
  | nil => rfl
  | cons entry rest ih =>
      obtain ⟨hfirst, hrest⟩ := List.forall_mem_cons.1 hrule
      rw [List.map_cons, forEach, forEach, hfirst, ih hrest]

section Entries

variable {entries : List Entry} (hwell : ∀ entry ∈ entries, (Json.obj entry.params).WellFormed)

include hwell

theorem primaryKeyRule_prune : primaryKeyRule (entries.map Entry.prune) = primaryKeyRule entries := by
  have htrue : ∀ entry ∈ entries, ∀ key, key ≠ Parameter.constraints →
      isTrue entry.prune.params key = isTrue entry.params key :=
    fun entry hmem key => isTrue_pruneParams (hwell entry hmem).nodup_keys
  have hkeys : primaryKeys (entries.map Entry.prune) = (primaryKeys entries).map Entry.prune := by
    rw [primaryKeys, List.filter_map]
    exact congrArg _ (List.filter_congr fun entry hmem => htrue entry hmem _ (by decide))
  rw [primaryKeyRule, primaryKeyRule, hkeys]
  cases hmarked : primaryKeys entries with
  | nil => rfl
  | cons key others =>
      cases others with
      | nil =>
          have hmem : key ∈ entries := (List.mem_filter.1 (hmarked ▸ List.mem_singleton_self key)).1
          show (if isTrue key.prune.params Parameter.required then _ else _) = _
          rw [htrue key hmem Parameter.required (by decide)]
          rfl
      | cons other rest =>
          show Except.error (DocumentFault.manyPrimaryKeys ((List.map Entry.prune (key :: other :: rest)).map Entry.name)) = _
          rw [List.map_map]
          rfl

theorem distinctRule_prune {key : String} (hkey : key ≠ Parameter.constraints) :
    distinctRule key (entries.map Entry.prune) = distinctRule key entries := by
  have hgroups : groups key (entries.map Entry.prune) = groups key entries := by
    rw [groups, List.foldl_map, groups]
    refine List.foldl_ext _ _ _ fun all entry hmem => ?_
    rw [Entry.prune, param?_pruneParams_of_ne (hwell entry hmem).nodup_keys hkey]
  rw [distinctRule, distinctRule, hgroups]

end Entries

theorem entries_prune (document : Json) : entries (prune document) = (entries document).map (List.map Entry.prune) := by
  cases document with
  | obj members =>
      rw [prune, mapObject, entries, entries]
      induction members with
      | nil => rfl
      | cons member rest ih =>
          obtain ⟨name, params⟩ := member
          have hfirst : entry name (mapObject pruneParams params) = (entry name params).map Entry.prune := by
            cases params with
            | obj params =>
                simp only [mapObject, entry]
                split <;> rfl
            | _ =>
                simp only [mapObject, entry]
                split <;> rfl
          rw [List.map_cons, entriesOf, entriesOf, hfirst, ih]
          cases entry name params with
          | error fault => rfl
          | ok first => cases entriesOf rest <;> rfl
  | _ => rfl

/-- Validation answers the same about a document without its nulls. -/
theorem validate_prune {document : Json} (hwell : document.WellFormed) :
    validate (prune document) = validate document := by
  rw [validate, validate, entries_prune]
  cases hentries : entries document with
  | error fault => rfl
  | ok all =>
      have hall : ∀ entry ∈ all, (Json.obj entry.params).WellFormed := by
        intro entry hmem
        rw [(entries_eq_ok_iff.1 hentries).1] at hwell
        exact hwell.member (List.mem_map_of_mem hmem)
      have hnodup : ∀ entry ∈ all, entry.params.keys.Nodup := fun entry hmem => (hall entry hmem).nodup_keys
      have htexts : textRules (all.map Entry.prune) = textRules all := by
        refine forEach_congr fun entry hmem => ?_
        rw [Entry.textRule_prune (hnodup entry hmem) (by decide), Entry.textRule_prune (hnodup entry hmem) (by decide)]
      have hfields : forEach fieldRules (all.map Entry.prune) = forEach fieldRules all :=
        forEach_congr fun entry hmem => Entry.fieldRules_prune (hall entry hmem)
      dsimp only [Except.map, bind, Except.bind]
      rw [primaryKeyRule_prune hall, hfields, htexts, distinctRule_prune hall (by decide),
        distinctRule_prune hall (by decide)]

end AddressBook.Document
