import AddressBook.Proofs.Schema.Kinds
import Mathlib.Data.List.Perm.Basic
/-!
# Which records fit a schema

A record fits a schema if each of its fields does: a required field has a value, and a value that is there is of the kind
of the field. So neither the order of the fields nor that of the members of a record matters to whether it fits, and
leaving out more fields never makes it unfit. If a record does not fit, the order of the fields decides what is reported:
the first field that fails, for the want of a value or for the kind that its value is not of.
-/

namespace AddressBook

/-- There is no value, or one that counts as none. -/
inductive Blank : Option Json → Prop
  | absent : Blank none
  | null : Blank (some .null)
  | text : Blank (some (.str ""))
  | array : Blank (some (.arr []))
  | object : Blank (some (.obj []))

theorem isEmpty_iff_blank {value : Json} : value.isEmpty = true ↔ Blank (some value) := by
  constructor
  · intro hempty
    cases value with
    | null => exact .null
    | str s =>
        obtain rfl := String.isEmpty_iff.1 hempty
        exact .text
    | arr items =>
        obtain rfl := List.isEmpty_iff.1 hempty
        exact .array
    | obj members =>
        obtain rfl := List.isEmpty_iff.1 hempty
        exact .object
    | bool | int | float => nomatch hempty
  · intro hblank
    cases hblank <;> rfl

namespace Field

/-- A value is what the field asks for. -/
structure Passes (field : Field) (policy : UntypedLists) (value : Option Json) : Prop where
  present : field.required = true → ¬ Blank value
  accepted : ∀ own, value = some own → ¬ Blank value → field.kind.Accepts field.constraints policy own

/-- A value is not what the field asks for, and the violation says why. -/
inductive Fails (field : Field) (policy : UntypedLists) : Option Json → Violation → Prop
  | missing {value : Option Json} (hrequired : field.required = true) (hblank : Blank value) :
      Fails field policy value (.missingRequiredValue field.name)
  | wrongType {own : Json} {expected : Kind} (hvalue : ¬ Blank (some own))
      (hrejects : field.kind.Rejects field.constraints policy own expected) :
      Fails field policy (some own) (.wrongType field.name expected)

variable {field : Field} {policy : UntypedLists} {value : Option Json} {own : Json} {violation : Violation}

theorem check_of_blank (hblank : Blank value) :
    field.check policy value = if field.required then .error (.missingRequiredValue field.name) else .ok () := by
  cases hblank <;> rfl

theorem check_of_not_blank (hvalue : ¬ Blank (some own)) :
    field.check policy (some own) = (field.kind.check field.constraints policy own).mapError (·.forField field.name) := by
  have hempty : own.isEmpty = false := Bool.eq_false_iff.2 fun hempty => hvalue (isEmpty_iff_blank.1 hempty)
  rw [check, Option.filter_some, hempty, Bool.not_false, if_pos rfl]
  dsimp only
  cases field.kind.check field.constraints policy own <;> rfl

theorem check_eq_ok_iff : field.check policy value = .ok () ↔ field.Passes policy value := by
  by_cases hblank : Blank value
  · rw [check_of_blank hblank]
    constructor
    · intro hok
      refine ⟨fun hrequired => ?_, fun own hown hnot => absurd hblank hnot⟩
      rw [hrequired] at hok
      nomatch hok
    · intro hpasses
      exact if_neg fun hrequired => hpasses.present hrequired hblank
  · obtain ⟨own, rfl⟩ : ∃ own, value = some own :=
      Option.ne_none_iff_exists'.1 fun hnone => hblank (hnone ▸ .absent)
    rw [check_of_not_blank hblank, Except.mapError_eq_ok_iff, Kind.check_eq_ok_iff]
    constructor
    · intro haccepts
      refine ⟨fun _ => hblank, fun other hother _ => ?_⟩
      obtain rfl := Option.some.inj hother
      exact haccepts
    · exact fun hpasses => hpasses.accepted own rfl hblank

theorem check_eq_error_iff : field.check policy value = .error violation ↔ field.Fails policy value violation := by
  constructor
  · intro hfails
    by_cases hblank : Blank value
    · rw [check_of_blank hblank] at hfails
      split at hfails
      · rename_i hrequired
        exact Except.error.inj hfails ▸ .missing hrequired hblank
      · nomatch hfails
    · obtain ⟨own, rfl⟩ : ∃ own, value = some own :=
        Option.ne_none_iff_exists'.1 fun hnone => hblank (hnone ▸ .absent)
      rw [check_of_not_blank hblank] at hfails
      cases hkind : field.kind.check field.constraints policy own with
      | ok => simp [hkind, Except.mapError] at hfails
      | error mismatch =>
          rw [hkind] at hfails
          exact Except.error.inj hfails ▸ .wrongType hblank (Kind.check_eq_error_iff.1 hkind)
  · intro hfails
    cases hfails with
    | missing hrequired hblank =>
        rw [check_of_blank hblank]
        exact if_pos hrequired
    | wrongType hvalue hrejects =>
        rw [check_of_not_blank hvalue, Kind.check_eq_error_iff.2 hrejects]
        rfl

end Field

namespace Schema

variable {schema : Schema} {record record' : Members} {skip more : List String} {violation : Violation}
  {members members' : Members} {fields : List Field}

/-! ### Field by field -/

theorem checkFields_eq_forM (policy : UntypedLists) (record : Members) (fields : List Field) :
    checkFields policy record fields = forM fields fun field => field.check policy (record.get? field.name) := by
  induction fields with
  | nil => rfl
  | cons field rest ih => rw [checkFields, ih, List.forM_cons]

theorem check_eq_ok_iff : schema.check record skip = .ok () ↔
    ∀ field ∈ schema.fields, field.name ∉ skip → field.Passes schema.policy (record.get? field.name) := by
  rw [check, checkFields_eq_forM, Except.forM_eq_ok_iff]
  simp only [List.mem_filter, Bool.not_eq_true', List.contains_eq_mem, decide_eq_false_iff_not, and_imp,
    Field.check_eq_ok_iff]

theorem check_eq_error_iff : schema.check record skip = .error violation ↔
    ∃ before field after, schema.fields = before ++ field :: after ∧ field.name ∉ skip ∧
      (∀ earlier ∈ before, earlier.name ∉ skip → earlier.Passes schema.policy (record.get? earlier.name)) ∧
      field.Fails schema.policy (record.get? field.name) violation := by
  rw [check, checkFields_eq_forM, Except.forM_eq_error_iff]
  simp only [Field.check_eq_ok_iff, Field.check_eq_error_iff]
  constructor
  · rintro ⟨before, field, after, hfilter, hbefore, hfails⟩
    obtain ⟨front, back, hfields, rfl, hback⟩ := List.filter_eq_append_iff.1 hfilter
    obtain ⟨skipped, rest, rfl, hskipped, hfield, rfl⟩ := List.filter_eq_cons_iff.1 hback
    refine ⟨front ++ skipped, field, rest, ?_, by simpa using hfield, ?_, hfails⟩
    · rw [hfields, List.append_assoc]
    · intro earlier hearlier hname
      have hchecked : (!skip.contains earlier.name) = true := by simpa using hname
      rcases List.mem_append.1 hearlier with hmem | hmem
      · exact hbefore earlier (List.mem_filter.2 ⟨hmem, hchecked⟩)
      · exact absurd hchecked (hskipped earlier hmem)
  · rintro ⟨before, field, after, hfields, hname, hbefore, hfails⟩
    refine ⟨before.filter (!skip.contains ·.name), field, after.filter (!skip.contains ·.name), ?_, ?_, hfails⟩
    · rw [hfields, List.filter_append, List.filter_cons_of_pos (by simpa using hname)]
    · intro earlier hearlier
      obtain ⟨hmem, hchecked⟩ := List.mem_filter.1 hearlier
      exact hbefore earlier hmem (by simpa using hchecked)

/-! ### Other orders -/

theorem fieldsOf_eq_ok_iff : fieldsOf members = .ok fields ↔
    List.Forall₂ (fun member field => Field.ofParameters member.1 member.2 = .ok field) members fields := by
  induction members generalizing fields with
  | nil => simp [fieldsOf, eq_comm]
  | cons member rest ih =>
      rw [fieldsOf, Except.bind_eq_ok_iff, List.forall₂_cons_left_iff]
      refine exists_congr fun first => ?_
      simp only [Except.bind_eq_ok_iff, Except.pure_eq_ok_iff, ih]
      constructor
      · rintro ⟨hfirst, others, hothers, heq⟩
        exact ⟨others, hfirst, hothers, heq.symm⟩
      · rintro ⟨others, hfirst, hothers, heq⟩
        exact ⟨hfirst, others, hothers, heq.symm⟩

theorem exists_member_of_mem (hfields : fieldsOf members = .ok fields) (hmem : field ∈ fields) :
    ∃ member ∈ members, Field.ofParameters member.1 member.2 = .ok field := by
  have hpairs := fieldsOf_eq_ok_iff.1 hfields
  clear hfields
  induction hpairs with
  | nil => nomatch hmem
  | @cons member first _ _ hfirst _ ih =>
      rcases List.mem_cons.1 hmem with rfl | hmem
      · exact ⟨member, List.mem_cons_self, hfirst⟩
      · obtain ⟨other, hother, hloads⟩ := ih hmem
        exact ⟨other, List.mem_cons_of_mem _ hother, hloads⟩

theorem exists_fieldsOf_of_perm (hmembers : members'.Perm members) (hfields : fieldsOf members = .ok fields) :
    ∃ fields', fieldsOf members' = .ok fields' ∧ fields'.Perm fields := by
  obtain ⟨fields', hloads, hperm⟩ := List.perm_comp_forall₂ hmembers (fieldsOf_eq_ok_iff.1 hfields)
  exact ⟨fields', fieldsOf_eq_ok_iff.2 hloads, hperm⟩

theorem check_eq_ok_of_perm {schema' : Schema} (hfields : schema'.fields.Perm schema.fields)
    (hpolicy : schema'.policy = schema.policy) (hrecord : record'.Perm record) (hnodup : (Assoc.keys record).Nodup) :
    schema'.check record' skip = .ok () ↔ schema.check record skip = .ok () := by
  have hget : ∀ name, record'.get? name = record.get? name := Assoc.get?_of_perm hrecord hnodup
  simp only [check_eq_ok_iff, hpolicy, hget, hfields.mem_iff]

/-- The schema that a document describes, under any policy. -/
def LoadedFrom (schema : Schema) (document : Json) : Prop :=
  ∃ loaded, ofDocument document = .ok loaded ∧ schema = { loaded with policy := schema.policy }

theorem loadedFrom_obj_iff : schema.LoadedFrom (.obj members) ↔ fieldsOf members = .ok schema.fields := by
  constructor
  · rintro ⟨loaded, hloads, heq⟩
    obtain ⟨fields, hfields, rfl⟩ := Except.map_eq_ok_iff.1 hloads
    rw [hfields, heq]
  · intro hfields
    exact ⟨{ fields := schema.fields }, Except.map_eq_ok_iff.2 ⟨_, hfields, rfl⟩, rfl⟩

/-! ### Records -/

/-- A record fits if every field that is not skipped passes, and the first one that fails is reported. -/
theorem first_violation_reported (schema : Schema) (record : Members) (skip : List String) :
    (schema.check record skip = .ok () ↔
      ∀ field ∈ schema.fields, field.name ∉ skip → field.Passes schema.policy (record.get? field.name)) ∧
    (∀ violation, schema.check record skip = .error violation ↔
      ∃ before field after, schema.fields = before ++ field :: after ∧ field.name ∉ skip ∧
        (∀ earlier ∈ before, earlier.name ∉ skip → earlier.Passes schema.policy (record.get? earlier.name)) ∧
        field.Fails schema.policy (record.get? field.name) violation) ∧
    (∀ name expected, (Violation.wrongType name expected).toJson = .obj [("code", .str "wrong_type"),
      ("field", .str name), ("expected_type", .str expected.displayName)]) ∧
    (∀ members members' record', schema.LoadedFrom (.obj members) → members'.Perm members → record'.Perm record →
      (Assoc.keys record).Nodup → ∃ schema' : Schema, schema'.LoadedFrom (.obj members') ∧
        schema'.policy = schema.policy ∧ (schema'.check record' skip = .ok () ↔ schema.check record skip = .ok ())) ∧
    (∀ more, skip ⊆ more → schema.check record skip = .ok () → schema.check record more = .ok ()) := by
  refine ⟨check_eq_ok_iff, fun violation => check_eq_error_iff, fun _ _ => rfl, ?_, ?_⟩
  · intro members members' record' hloads hmembers hrecord hnodup
    obtain ⟨fields, hfields, hperm⟩ := exists_fieldsOf_of_perm hmembers (loadedFrom_obj_iff.1 hloads)
    exact ⟨{ schema with fields }, loadedFrom_obj_iff.2 hfields, rfl, check_eq_ok_of_perm hperm rfl hrecord hnodup⟩
  · intro more hmore hok
    rw [check_eq_ok_iff] at hok ⊢
    exact fun field hmem hname => hok field hmem fun hskip => hname (hmore hskip)

/-- A document with a required text and a truth value. -/
def memberDocument : Members :=
  [("name", .obj [("type", .str "str"), ("required", .bool true)]), ("active", .obj [("type", .str "boolean")])]

def memberFields : List Field :=
  [{ name := "name", kind := .str, required := true }, { name := "active", kind := .toggle }]

def memberRecord : Members := [("name", .str "Ada"), ("active", .bool true)]

theorem first_violation_reported_reversed :
    ∃ schema : Schema, schema.LoadedFrom (.obj memberDocument.reverse) ∧ schema.policy = .accept ∧
      schema.check memberRecord.reverse [] = .ok () ∧ schema.check memberRecord.reverse ["name"] = .ok () := by
  have hloads : (Schema.mk memberFields .accept).LoadedFrom (.obj memberDocument) := ⟨_, rfl, rfl⟩
  obtain ⟨-, -, -, hreordered, -⟩ := first_violation_reported ⟨memberFields, .accept⟩ memberRecord []
  obtain ⟨schema, hschema, hpolicy, hfits⟩ :=
    hreordered _ _ _ hloads (List.reverse_perm _) (List.reverse_perm _) (by decide)
  have hreversed : schema.check memberRecord.reverse [] = .ok () := hfits.2 rfl
  obtain ⟨-, -, -, -, hskips⟩ := first_violation_reported schema memberRecord.reverse []
  exact ⟨schema, hschema, hpolicy, hreversed, hskips _ (List.nil_subset _) hreversed⟩

-- The order of the fields matters to what is reported.
example : (Schema.mk memberFields .reject).check [("active", .int 1)] [] = .error (.missingRequiredValue "name") := rfl

example : (Schema.mk memberFields.reverse .reject).check [("active", .int 1)] [] = .error (.wrongType "active" .toggle) :=
  rfl

end Schema

end AddressBook
