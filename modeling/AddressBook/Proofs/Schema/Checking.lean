import AddressBook.Proofs.Document.Stored
/-!
# What the check of a record depends on

A check looks at no double, so neither the record nor the schema need be exact about them. It looks at the policy for
lists only where a list names no kind for its items, which no field of a valid document does. And of a record it sees the
values at the names that are not skipped, in whatever order the record has them.
-/

namespace AddressBook

open Json (withFloatsInItems withFloatsInMembers)
open Number (Binary64)

variable {f g : Binary64 → Binary64}

/-! ### Doubles -/

namespace Json

@[simp] theorem asString?_withFloats (value : Json) : (value.withFloats f).asString? = value.asString? := by
  cases value <;> rfl

@[simp] theorem asBool?_withFloats (value : Json) : (value.withFloats f).asBool? = value.asBool? := by
  cases value <;> rfl

@[simp] theorem asSigned?_withFloats (value : Json) : (value.withFloats f).asSigned? = value.asSigned? := by
  cases value <;> rfl

@[simp] theorem isString_withFloats (value : Json) : (value.withFloats f).isString = value.isString := by
  cases value <;> rfl

@[simp] theorem isBool_withFloats (value : Json) : (value.withFloats f).isBool = value.isBool := by
  cases value <;> rfl

@[simp] theorem isInteger_withFloats (value : Json) : (value.withFloats f).isInteger = value.isInteger := by
  cases value <;> rfl

@[simp] theorem isEmpty_withFloats (value : Json) : (value.withFloats f).isEmpty = value.isEmpty := by
  cases value with
  | arr items => cases items <;> rfl
  | obj members => cases members <;> rfl
  | _ => rfl

theorem withFloatsInMembers_id (members : Members) : withFloatsInMembers id members = members :=
  Json.obj.inj (@withFloats_eq_self id (.obj members) fun _ _ => rfl)

end Json

/-- Who sees no double in a parameter sees the same with other doubles. -/
theorem bind_get?_withFloatsInMembers {α : Type} {view : Json → Option α}
    (hview : ∀ value : Json, view (value.withFloats f) = view value) (params : Members) (key : String) :
    (Assoc.get? (withFloatsInMembers f params) key).bind view = (params.get? key).bind view := by
  rw [Json.get?_withFloatsInMembers, Option.bind_map]
  exact congrArg _ (funext hview)

namespace Kind

variable {constraints : Members}

theorem itemRule_withFloats (constraints : Members) :
    itemRule (withFloatsInMembers f constraints) = itemRule constraints := by
  rw [itemRule, itemRule, bind_get?_withFloatsInMembers Json.asString?_withFloats]

theorem acceptedExtensions?_withFloats (constraints : Members) :
    acceptedExtensions? (withFloatsInMembers f constraints) =
      (acceptedExtensions? constraints).map (List.map (Json.withFloats f)) := by
  rw [acceptedExtensions?, acceptedExtensions?, Json.get?_withFloatsInMembers]
  cases constraints.get? Constraint.acceptedTypes with
  | none => rfl
  | some value =>
      cases value with
      | arr items =>
          rw [Option.map_some, Json.withFloats_arr]
          cases items <;> rfl
      | _ => rfl

theorem acceptsExtension_withFloats (accepted : List Json) (extension : String) :
    acceptsExtension (accepted.map (Json.withFloats f)) extension = acceptsExtension accepted extension := by
  rw [acceptsExtension, acceptsExtension, List.filterMap_map]
  exact congrArg (List.any · _) (congrArg (List.filterMap · _) (funext Json.asString?_withFloats))

theorem isImagePath_withFloats (constraints : Members) (path : String) :
    isImagePath (withFloatsInMembers f constraints) path = isImagePath constraints path := by
  rw [isImagePath, isImagePath, acceptedExtensions?_withFloats]
  cases extension? path with
  | none => rfl
  | some extension =>
      cases acceptedExtensions? constraints with
      | none => rfl
      | some accepted => exact acceptsExtension_withFloats accepted extension

theorem admits_withFloats (kind : Kind) (constraints : Members) (value : Json) :
    kind.admits (withFloatsInMembers f constraints) (value.withFloats g) = kind.admits constraints value := by
  cases kind with
  | image =>
      cases value with
      | str path => exact isImagePath_withFloats constraints path
      | _ => rfl
  | list => rfl
  | integer => exact Json.isInteger_withFloats value
  | toggle => exact Json.isBool_withFloats value
  | str | longStr | url | email | select => exact Json.isString_withFloats value

theorem check_arr (policy : UntypedLists) (kind : Kind) (items : List Json) :
    check constraints policy kind (.arr items) =
      if kind = list then
        match itemRule constraints with
        | .each inner => checkItems constraints policy inner items
        | .unknown => .error ⟨list⟩
        | .untyped =>
            match policy with
            | .accept => .ok ()
            | .reject => .error ⟨list⟩
      else .error ⟨kind⟩ := by
  cases policy <;> rfl

theorem check_of_not_array {value : Json} (hvalue : value.asArray? = none) (policy : UntypedLists) (kind : Kind) :
    check constraints policy kind value = if kind.admits constraints value then .ok () else .error ⟨kind⟩ := by
  cases value with
  | arr items => nomatch hvalue
  | _ => rw [check.eq_def]

theorem checkItems_congr {constraints' : Members} {policy policy' : UntypedLists} {kind : Kind} {items : List Json}
    {turn : Json → Json}
    (hitems : ∀ item ∈ items, check constraints' policy' kind (turn item) = check constraints policy kind item) :
    checkItems constraints' policy' kind (items.map turn) = checkItems constraints policy kind items := by
  induction items with
  | nil => rw [List.map_nil, checkItems, checkItems]
  | cons item rest ih =>
      obtain ⟨hitem, hrest⟩ := List.forall_mem_cons.1 hitems
      rw [List.map_cons, checkItems, checkItems, hitem, ih hrest]

/-- A value is checked as another one if the leaves of both are admitted alike and their lists have alike items. -/
theorem check_congr {constraints' : Members} {turn : Json → Json} (hrule : itemRule constraints' = itemRule constraints)
    (hadmits : ∀ (kind : Kind) (value : Json), kind.admits constraints' (turn value) = kind.admits constraints value)
    (harr : ∀ items : List Json, turn (.arr items) = .arr (items.map turn))
    (hother : ∀ value : Json, value.asArray? = none → (turn value).asArray? = none) (policy : UntypedLists) (kind : Kind)
    (value : Json) : check constraints' policy kind (turn value) = check constraints policy kind value := by
  have hleaf : ∀ kind (own : Json), own.asArray? = none →
      check constraints' policy kind (turn own) = check constraints policy kind own := by
    intro kind own hown
    rw [check_of_not_array (hother own hown), check_of_not_array hown, hadmits]
  induction value using Json.induct generalizing kind with
  | harr items ih =>
      have hitems : ∀ inner, checkItems constraints' policy inner (items.map turn) =
          checkItems constraints policy inner items :=
        fun inner => checkItems_congr fun item hmem => ih item hmem inner
      simp only [harr, check_arr, hrule, hitems]
  | hnull | hbool | hint | hfloat | hstr | hobj => exact hleaf kind _ rfl

/-- Of the constraints a check sees the kind of the items and the accepted extensions. -/
theorem check_congr_constraints {constraints' : Members} (hrule : itemRule constraints' = itemRule constraints)
    (hextensions : acceptedExtensions? constraints' = acceptedExtensions? constraints) (policy : UntypedLists) (kind : Kind)
    (value : Json) : check constraints' policy kind value = check constraints policy kind value := by
  refine @check_congr constraints constraints' id hrule (fun kind own => ?_) (fun items => ?_) (fun _ => id) policy kind value
  · cases kind with
    | image =>
        cases own with
        | str path =>
            change isImagePath constraints' path = isImagePath constraints path
            rw [isImagePath, isImagePath, hextensions]
        | _ => rfl
    | integer | str | longStr | url | email | select | list | toggle => rfl
  · rw [List.map_id, id]

theorem check_withFloats (policy : UntypedLists) (kind : Kind) (value : Json) :
    check (withFloatsInMembers f constraints) policy kind (value.withFloats g) = check constraints policy kind value := by
  refine check_congr (itemRule_withFloats constraints) (fun kind own => admits_withFloats kind constraints own)
    Json.withFloats_arr (fun own hown => ?_) policy kind value
  cases own with
  | arr items => nomatch hown
  | _ => rfl

/-- The policy matters to lists alone whose constraints say nothing of their items. -/
theorem check_policy {policy policy' : UntypedLists} {kind : Kind} (hitems : kind = list → itemRule constraints ≠ .untyped)
    (value : Json) : check constraints policy' kind value = check constraints policy kind value := by
  induction value using Json.induct generalizing kind with
  | harr items ih =>
      rw [check_arr, check_arr]
      split
      · rename_i hlist
        have htyped := hitems hlist
        cases hrule : itemRule constraints with
        | each inner =>
            have hsame := @checkItems_congr constraints constraints policy policy' inner items id
              fun item hmem => ih item hmem fun _ => htyped
            rw [List.map_id] at hsame
            exact hsame
        | unknown => rfl
        | untyped => exact absurd hrule htyped
      · rfl
  | hnull | hbool | hint | hfloat | hstr | hobj =>
      rw [check_of_not_array rfl, check_of_not_array rfl]

end Kind

/-! ### Fields -/

namespace Field

variable {field : Field}

/-- The field with other doubles in its constraints. -/
def withFloats (f : Binary64 → Binary64) (field : Field) : Field :=
  { field with constraints := withFloatsInMembers f field.constraints }

theorem check_withFloats (field : Field) (policy : UntypedLists) (value : Option Json) :
    (field.withFloats f).check policy (value.map (Json.withFloats g)) = field.check policy value := by
  have hfilter : (value.map (Json.withFloats g)).filter (!·.isEmpty) =
      (value.filter (!·.isEmpty)).map (Json.withFloats g) := by
    cases value with
    | none => rfl
    | some value =>
        rw [Option.map_some, Option.filter_some, Option.filter_some, Json.isEmpty_withFloats]
        cases value.isEmpty <;> rfl
  rw [check, check, hfilter]
  cases value.filter (!·.isEmpty) with
  | none => rfl
  | some value =>
      have hkind := @Kind.check_withFloats f g field.constraints policy field.kind value
      dsimp only [Option.map_some, withFloats]
      rw [hkind]

theorem itemRule_of_innerKind? {inner : Kind} (hinner : field.innerKind? = some inner) :
    Kind.itemRule field.constraints = .each inner := by
  unfold innerKind? at hinner
  split at hinner
  · obtain ⟨name, hname, hkind⟩ := Option.bind_eq_some_iff.1 hinner
    rw [Kind.itemRule, hname]
    dsimp only
    rw [hkind]
  · cases hinner

theorem check_policy {policy policy' : UntypedLists} (hitems : field.kind = .list → ∃ inner, field.innerKind? = some inner)
    (value : Option Json) : field.check policy' value = field.check policy value := by
  have hkind : field.kind = .list → Kind.itemRule field.constraints ≠ .untyped := by
    intro hlist
    obtain ⟨inner, hinner⟩ := hitems hlist
    rw [itemRule_of_innerKind? hinner]
    exact nofun
  rw [check, check]
  cases value.filter (!·.isEmpty) with
  | none => rfl
  | some value =>
      dsimp only
      rw [Kind.check_policy hkind value]

/-- A field is loaded from what is seen of its parameters; what becomes of the constraints becomes of the field's own. -/
theorem ofMembers_congr {params params' : Members} {turn : Members → Members} (hnil : turn [] = [])
    (hstring : ∀ key, key ≠ Parameter.constraints →
      (params'.get? key).bind Json.asString? = (params.get? key).bind Json.asString?)
    (hbool : ∀ key, key ≠ Parameter.constraints →
      (params'.get? key).bind Json.asBool? = (params.get? key).bind Json.asBool?)
    (hint64 : ∀ key, key ≠ Parameter.constraints → (params'.get? key).bind int64? = (params.get? key).bind int64?)
    (hconstraints : (params'.get? Parameter.constraints).bind Json.asObject? =
      ((params.get? Parameter.constraints).bind Json.asObject?).map turn) (name : String) :
    ofMembers name params' =
      (ofMembers name params).map fun field => { field with constraints := turn field.constraints } := by
  rw [ofMembers, ofMembers, hstring _ (by decide), hstring _ (by decide), hstring _ (by decide), hbool _ (by decide),
    hbool _ (by decide), hint64 _ (by decide), hint64 _ (by decide), hconstraints]
  cases (params.get? Parameter.kind).bind Json.asString? with
  | none => rfl
  | some kindName =>
      dsimp only
      cases Kind.ofName? kindName with
      | none => rfl
      | some kind =>
          dsimp only [Except.map]
          cases (params.get? Parameter.constraints).bind Json.asObject? with
          | none => rw [Option.map_none, Option.getD_none, hnil]
          | some constraints => rfl

theorem ofMembers_withFloats (name : String) (params : Members) :
    ofMembers name (withFloatsInMembers f params) = (ofMembers name params).map (withFloats f) := by
  have hint64 : ∀ value : Json, int64? (value.withFloats f) = int64? value := by
    intro value
    rw [int64?, int64?, Json.asSigned?_withFloats]
  refine ofMembers_congr rfl (fun key _ => bind_get?_withFloatsInMembers Json.asString?_withFloats params key)
    (fun key _ => bind_get?_withFloatsInMembers Json.asBool?_withFloats params key)
    (fun key _ => bind_get?_withFloatsInMembers hint64 params key) ?_ name
  rw [Json.get?_withFloatsInMembers]
  cases params.get? Parameter.constraints with
  | none => rfl
  | some value => cases value <;> rfl

end Field

/-! ### Schemas -/

namespace Schema

variable {schema : Schema} {record record' : Members}

/-- The schema with other doubles in the constraints of its fields. -/
def withFloats (f : Binary64 → Binary64) (schema : Schema) : Schema :=
  { schema with fields := schema.fields.map (Field.withFloats f) }

theorem fieldsOf_congr {members : Members} {turn : Json → Json} {turnField : Field → Field}
    (hfields : ∀ member ∈ members, Field.ofParameters member.1 (turn member.2) =
      (Field.ofParameters member.1 member.2).map turnField) :
    fieldsOf (members.map fun member => (member.1, turn member.2)) = (fieldsOf members).map (List.map turnField) := by
  induction members with
  | nil => rfl
  | cons member rest ih =>
      obtain ⟨hfirst, hrest⟩ := List.forall_mem_cons.1 hfields
      rw [List.map_cons, fieldsOf, fieldsOf, hfirst, ih hrest]
      cases Field.ofParameters member.1 member.2 with
      | error fault => rfl
      | ok first => cases fieldsOf rest <;> rfl

theorem fieldsOf_withFloats (members : Members) :
    fieldsOf (withFloatsInMembers f members) = (fieldsOf members).map (List.map (Field.withFloats f)) := by
  rw [Json.withFloatsInMembers_eq_map]
  refine fieldsOf_congr fun member _ => ?_
  cases member.2 with
  | obj params => exact Field.ofMembers_withFloats member.1 params
  | _ => rfl

theorem ofDocument_withFloats (document : Json) :
    ofDocument (document.withFloats f) = (ofDocument document).map (withFloats f) := by
  cases document with
  | obj members =>
      rw [Json.withFloats, ofDocument, ofDocument, fieldsOf_withFloats]
      cases fieldsOf members <;> rfl
  | _ => rfl

theorem checkFields_congr_of_forall₂ {policy policy' : UntypedLists} {fields fields' : List Field}
    (hfields : List.Forall₂ (fun field other => other.check policy' (record'.get? other.name) =
      field.check policy (record.get? field.name)) fields fields') :
    checkFields policy' record' fields' = checkFields policy record fields := by
  induction hfields with
  | nil => rfl
  | cons hfirst _ ih => rw [checkFields, checkFields, hfirst, ih]

theorem checkFields_congr {policy policy' : UntypedLists} {fields : List Field} {turn : Field → Field}
    (hfields : ∀ field ∈ fields, (turn field).check policy' (record'.get? (turn field).name) =
      field.check policy (record.get? field.name)) :
    checkFields policy' record' (fields.map turn) = checkFields policy record fields :=
  checkFields_congr_of_forall₂ (List.forall₂_map_right_iff.2 (List.forall₂_same.2 hfields))

theorem checkFields_congr_self {policy policy' : UntypedLists} {fields : List Field}
    (hfields : ∀ field ∈ fields, field.check policy' (record'.get? field.name) =
      field.check policy (record.get? field.name)) :
    checkFields policy' record' fields = checkFields policy record fields := by
  have hsame := @checkFields_congr record record' policy policy' fields id hfields
  rwa [List.map_id] at hsame

theorem check_withFloats (schema : Schema) (record : Members) (skip : List String) :
    (schema.withFloats f).check (withFloatsInMembers g record) skip = schema.check record skip := by
  have hfilter : (schema.withFloats f).fields.filter (!skip.contains ·.name) =
      (schema.fields.filter (!skip.contains ·.name)).map (Field.withFloats f) := List.filter_map
  rw [check, check, hfilter]
  refine checkFields_congr fun field hmem => ?_
  rw [Json.get?_withFloatsInMembers]
  exact field.check_withFloats schema.policy (record.get? field.name)

theorem check_withFloats_schema (schema : Schema) (record : Members) (skip : List String) :
    (schema.withFloats f).check record skip = schema.check record skip := by
  have hsame := schema.check_withFloats (f := f) (g := id) record skip
  rw [Json.withFloatsInMembers_id] at hsame
  exact hsame

theorem check_withFloats_record (schema : Schema) (record : Members) (skip : List String) :
    schema.check (withFloatsInMembers g record) skip = schema.check record skip := by
  rw [← schema.check_withFloats_schema (f := id), schema.check_withFloats]

/-- Every list of the schema names a kind for its items. -/
def NamesItems (schema : Schema) : Prop :=
  ∀ field ∈ schema.fields, field.kind = .list → ∃ inner, field.innerKind? = some inner

/-- A document that a schema can be loaded from names kinds for the items of its lists. -/
theorem namesItems_of_usable {document : Json} (husable : Document.Usable document)
    (hloads : ofDocument document = .ok schema) : schema.NamesItems := by
  rcases husable with rfl | hvalid
  · obtain rfl := Except.ok.inj hloads
    exact fun field hmem => absurd hmem List.not_mem_nil
  · obtain ⟨all, own, hdescribes⟩ := Document.exists_describes hvalid
    obtain rfl := Except.ok.inj (hdescribes.loads.symm.trans hloads)
    exact fun field hmem hlist => (hdescribes.structured.lists field hmem hlist).imp fun _ => And.left

theorem check_policy (hitems : schema.NamesItems) (policy : UntypedLists) (record : Members) (skip : List String) :
    { schema with policy }.check record skip = schema.check record skip := by
  refine checkFields_congr_self fun field hmem => ?_
  exact Field.check_policy (hitems field (List.mem_of_mem_filter hmem)) (record.get? field.name)

/-- A check sees the values at the names that are not skipped. -/
theorem check_congr {skip : List String} (hrecord : ∀ name, name ∉ skip → record'.get? name = record.get? name) :
    schema.check record' skip = schema.check record skip := by
  refine checkFields_congr_self fun field hmem => ?_
  have hname : field.name ∉ skip := by simpa using (List.mem_filter.1 hmem).2
  rw [hrecord field.name hname]

end Schema

end AddressBook
