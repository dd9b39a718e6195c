import AddressBook.Proofs.Schema.Records
/-!
# Lists of no kind under the two policies

The policies for lists whose items are of no kind part at one place: where such a list has items, the strict policy refuses
the field and ends there, and the lax one goes on with the fields behind it. So the lax policy lets everything through that
the strict one does, and what it reports is either the same violation or that of a later field. This holds of every schema
that can be loaded, whatever its constraints are.
-/

namespace AddressBook

namespace Field

/-- The field is a list, its constraints say nothing of the items, and there are items. -/
structure HoldsUntyped (field : Field) (value : Option Json) : Prop where
  list : field.kind = .list
  untyped : Kind.ItemsUntyped field.constraints
  items : ∃ items, items ≠ [] ∧ value = some (.arr items)

variable {field : Field} {value : Option Json} {own : Json}

theorem check_of_holdsUntyped (hholds : field.HoldsUntyped value) (policy : UntypedLists) :
    field.check policy value =
      match policy with
      | .accept => .ok ()
      | .reject => .error (.wrongType field.name .list) := by
  obtain ⟨items, hitems, rfl⟩ := hholds.items
  have hvalue : ¬ Blank (some (.arr items)) := fun hblank => by
    cases hblank
    exact hitems rfl
  rw [check_of_not_blank hvalue, Kind.check_arr, if_pos hholds.list, Kind.itemRule_eq_untyped_iff.2 hholds.untyped]
  cases policy <;> rfl

/-- Elsewhere the policies agree: an item is checked under the constraints of its list, which name a kind. -/
theorem check_of_not_holdsUntyped (hholds : ¬ field.HoldsUntyped value) :
    field.check .accept value = field.check .reject value := by
  by_cases hblank : Blank value
  · rw [check_of_blank hblank, check_of_blank hblank]
  · obtain ⟨own, rfl⟩ : ∃ own, value = some own :=
      Option.ne_none_iff_exists'.1 fun hnone => hblank (hnone ▸ .absent)
    rw [check_of_not_blank hblank, check_of_not_blank hblank]
    refine congrArg _ ?_
    by_cases harray : own.asArray? = none
    · rw [Kind.check_of_not_array harray, Kind.check_of_not_array harray]
    · obtain ⟨items, hitems⟩ := Option.ne_none_iff_exists'.1 harray
      obtain rfl := Json.asArray?_eq_some_iff.1 hitems
      have hne : items ≠ [] := fun hnil => hblank (hnil ▸ .array)
      exact Kind.check_policy (fun hlist huntyped =>
        hholds ⟨hlist, Kind.itemRule_eq_untyped_iff.1 huntyped, items, hne, rfl⟩) _

theorem name_of_ofParameters {name : String} {params : Json} (hloads : ofParameters name params = .ok field) :
    field.name = name := by
  cases params with
  | obj members =>
      rw [ofParameters, ofMembers] at hloads
      split at hloads
      · cases hloads
      · split at hloads
        · cases hloads
        · rw [← Except.ok.inj hloads]
  | _ => cases hloads

end Field

namespace Schema

variable {schema : Schema} {record members : Members} {skip : List String} {fields : List Field} {document : Json}

/-! ### Names -/

theorem names_of_fieldsOf (hloads : fieldsOf members = .ok fields) : fields.map Field.name = members.keys := by
  have hpairs := fieldsOf_eq_ok_iff.1 hloads
  clear hloads
  induction hpairs with
  | nil => rfl
  | cons hfirst _ ih => rw [List.map_cons, ih, Field.name_of_ofParameters hfirst, Assoc.keys, Assoc.keys, List.map_cons]

theorem exists_names_eq_keys (hloads : ofDocument document = .ok schema) :
    ∃ members : Members, document = .obj members ∧ schema.fields.map Field.name = members.keys := by
  cases document with
  | obj members =>
      obtain ⟨fields, hfields, rfl⟩ := Except.map_eq_ok_iff.1 hloads
      exact ⟨members, rfl, names_of_fieldsOf hfields⟩
  | _ => nomatch hloads

theorem exists_mem_of_checkFields {policy : UntypedLists} {violation : Violation}
    (hfails : checkFields policy record fields = .error violation) : ∃ field ∈ fields, violation.field = field.name := by
  rw [checkFields_eq_forM] at hfails
  obtain ⟨before, field, after, rfl, -, hfield⟩ := Except.forM_eq_error_iff.1 hfails
  refine ⟨field, List.mem_append_right _ List.mem_cons_self, ?_⟩
  have hviolation := Field.check_eq_error_iff.1 hfield
  generalize record.get? field.name = value at hviolation
  cases hviolation with
  | missing | wrongType => rfl

/-! ### Two runs -/

/-- The runs under the two policies are the same, or they part at the first field that holds a list of no kind. -/
theorem checkFields_policies (record : Members) (fields : List Field) :
    checkFields .accept record fields = checkFields .reject record fields ∨
    ∃ before field after, fields = before ++ field :: after ∧ field.HoldsUntyped (record.get? field.name) ∧
      checkFields .reject record fields = .error (.wrongType field.name .list) ∧
      checkFields .accept record fields = checkFields .accept record after := by
  induction fields with
  | nil => exact .inl rfl
  | cons first rest ih =>
      rw [checkFields, checkFields]
      by_cases hholds : first.HoldsUntyped (record.get? first.name)
      · refine .inr ⟨[], first, rest, rfl, hholds, ?_⟩
        rw [Field.check_of_holdsUntyped hholds, Field.check_of_holdsUntyped hholds]
        exact ⟨rfl, rfl⟩
      · rw [Field.check_of_not_holdsUntyped hholds]
        cases first.check .reject (record.get? first.name) with
        | error violation => exact .inl rfl
        | ok =>
            rcases ih with hsame | ⟨before, field, after, rfl, hfield, hreject, haccept⟩
            · exact .inl hsame
            · exact .inr ⟨first :: before, field, after, rfl, hfield, hreject, haccept⟩

theorem check_policies (schema : Schema) (record : Members) (skip : List String) :
    { schema with policy := .accept }.check record skip = { schema with policy := .reject }.check record skip ∨
    ∃ field ∈ schema.fields, field.name ∉ skip ∧ field.HoldsUntyped (record.get? field.name) ∧
      { schema with policy := .reject }.check record skip = .error (.wrongType field.name .list) ∧
      ∀ violation, { schema with policy := .accept }.check record skip = .error violation →
        ∃ later, [field, later].Sublist schema.fields ∧ violation.field = later.name := by
  rcases checkFields_policies record (schema.fields.filter (!skip.contains ·.name)) with
    hsame | ⟨before, field, after, hfields, hholds, hreject, haccept⟩
  · exact .inl hsame
  · have hmem : field ∈ schema.fields.filter (!skip.contains ·.name) := by
      rw [hfields]
      exact List.mem_append_right _ List.mem_cons_self
    obtain ⟨hfield, hname⟩ := List.mem_filter.1 hmem
    refine .inr ⟨field, hfield, by simpa using hname, hholds, hreject, fun violation hfails => ?_⟩
    obtain ⟨later, hlater, hviolation⟩ := exists_mem_of_checkFields (haccept.symm.trans hfails)
    have hpair : [field, later].Sublist (schema.fields.filter (!skip.contains ·.name)) := by
      rw [hfields]
      exact (List.Sublist.cons_cons field (List.singleton_sublist.2 hlater)).trans (List.sublist_append_right before _)
    exact ⟨later, hpair.trans List.filter_sublist, hviolation⟩

/-- The lax policy accepts what the strict one does, and reports the same violation or that of a later field. -/
theorem lax_policy_reports_later (hwell : document.WellFormed) (hloads : ofDocument document = .ok schema)
    (record : Members) (skip : List String) :
    ({ schema with policy := .reject }.check record skip = .ok () →
      { schema with policy := .accept }.check record skip = .ok ()) ∧
    ({ schema with policy := .accept }.check record skip ≠ { schema with policy := .reject }.check record skip →
      ∃ field ∈ schema.fields, field.name ∉ skip ∧ field.HoldsUntyped (record.get? field.name)) ∧
    ∀ strict lax, { schema with policy := .reject }.check record skip = .error strict →
      { schema with policy := .accept }.check record skip = .error lax →
      lax = strict ∨ lax.field ≠ strict.field ∧
        ∃ members : Members, document = .obj members ∧ [strict.field, lax.field].Sublist (Assoc.keys members) := by
  rcases schema.check_policies record skip with hsame | ⟨field, hfield, hname, hholds, hreject, hlater⟩
  · rw [hsame]
    refine ⟨id, fun hdiffer => absurd rfl hdiffer, fun strict lax hstrict hlax => .inl ?_⟩
    exact Except.error.inj (hlax.symm.trans hstrict)
  · refine ⟨fun hok => ?_, fun _ => ⟨field, hfield, hname, hholds⟩, fun strict lax hstrict hlax => .inr ?_⟩
    · rw [hreject] at hok
      nomatch hok
    · obtain rfl := Except.error.inj (hreject.symm.trans hstrict)
      obtain ⟨later, hpair, hviolation⟩ := hlater lax hlax
      obtain ⟨members, rfl, hnames⟩ := exists_names_eq_keys hloads
      have horder : [field.name, lax.field].Sublist (Assoc.keys members) := by
        rw [hviolation, ← hnames]
        exact hpair.map Field.name
      have hne : field.name ≠ lax.field := by simpa using hwell.nodup_keys.sublist horder
      exact ⟨hne.symm, members, rfl, horder⟩

/-- A list that names a number as the kind of its items, which validation refuses, and two required fields. -/
def looseDocument : Json :=
  .obj [
    ("name", .obj [("type", .str "str"), ("required", .bool true)]),
    ("tags", .obj [("type", .str "list"), ("additional_type_parameters", .obj [("inner_type", .int 7)])]),
    ("age", .obj [("type", .str "integer"), ("required", .bool true)])]

theorem wellFormed_looseDocument : looseDocument.WellFormed := by
  refine .obj (by decide) ?_
  simp only [List.forall_mem_cons]
  refine ⟨.obj (by decide) ?_, .obj (by decide) ?_, .obj (by decide) ?_, nofun⟩
  · exact List.forall_mem_cons.2 ⟨.str _, List.forall_mem_singleton.2 (.bool _)⟩
  · exact List.forall_mem_cons.2
      ⟨.str _, List.forall_mem_singleton.2 (.obj (by decide) (List.forall_mem_singleton.2 (.int ⟨by decide, by decide⟩)))⟩
  · exact List.forall_mem_cons.2 ⟨.str _, List.forall_mem_singleton.2 (.bool _)⟩

def looseSchema : Schema where
  fields := [
    { name := "name", kind := .str, required := true },
    { name := "tags", kind := .list, constraints := [(Constraint.innerType, .int 7)] },
    { name := "age", kind := .integer, required := true }]

def looseRecord : Members := [("name", .str "Ada"), ("tags", .arr [.null])]

theorem lax_policy_reports_later_loose :
    looseDocument.WellFormed ∧ ofDocument looseDocument = .ok looseSchema ∧
    { looseSchema with policy := .reject }.check looseRecord [] = .error (.wrongType "tags" .list) ∧
    { looseSchema with policy := .accept }.check looseRecord [] = .error (.missingRequiredValue "age") ∧
    (∃ members : Members, looseDocument = .obj members ∧ ["tags", "age"].Sublist members.keys) ∧
    (∃ field ∈ looseSchema.fields, field.HoldsUntyped (looseRecord.get? field.name)) ∧
    { looseSchema with policy := .accept }.check looseRecord ["tags", "age"] = .ok () := by
  have hloads : ofDocument looseDocument = .ok looseSchema := rfl
  obtain ⟨-, hdiffer, hreports⟩ := lax_policy_reports_later wellFormed_looseDocument hloads looseRecord []
  obtain ⟨hfits, -, -⟩ := lax_policy_reports_later wellFormed_looseDocument hloads looseRecord ["tags", "age"]
  refine ⟨wellFormed_looseDocument, hloads, rfl, rfl, ?_, ?_, hfits rfl⟩
  · rcases hreports _ _ rfl rfl with hsame | ⟨-, horder⟩
    · nomatch hsame
    · exact horder
  · obtain ⟨field, hmem, -, hholds⟩ := hdiffer nofun
    exact ⟨field, hmem, hholds⟩

end Schema

end AddressBook
