import AddressBook.Proofs.Assoc
import AddressBook.Proofs.Schema.Loading
/-!
# Fields as they are written

A field is written as an object with a member for its name and one for each parameter that it has, under the names that a
document has for them. So the object is read as parameters again, and the field that is read is the one that was written:
the kind goes by its first name, numbers of 64 signed bits fit, and what is left out is what a field has by default. This
holds of all fields, those that are built and those that come from a document.
-/

namespace AddressBook

theorem Json.asObject?_obj (members : Members) : (Json.obj members).asObject? = some members := rfl

theorem Kind.ofName?_name (kind : Kind) : ofName? kind.name = some kind := by
  cases kind <;> rfl

namespace Field

theorem int64?_toInt (n : Int64) : int64? (.int n.toInt) = some n := by
  have hsigned : Json.Signed n.toInt := ⟨Int64.le_toInt n, Int64.toInt_lt n⟩
  rw [int64?, Json.asSigned?_eq_some_iff.2 ⟨rfl, hsigned⟩, Option.map_some, Int64.ofInt_toInt]

/-! ### Building -/

/-- The settings that give an optional field its properties. -/
def settings (field : Field) : List Setting :=
  [.required field.required, .primaryKey field.primaryKey, .constraints field.constraints] ++
    (field.displayName.map Setting.displayName).toList ++ (field.sortKey.map Setting.sortKey).toList ++
    (field.mainAttribute.map Setting.mainAttribute).toList

@[simp] theorem formHelpText_set (field : Field) (setting : Setting) :
    (field.set setting).formHelpText = field.formHelpText := by
  cases setting <;> rfl

theorem formHelpText_foldl_set (settings : List Setting) (field : Field) :
    (settings.foldl set field).formHelpText = field.formHelpText := by
  induction settings generalizing field with
  | nil => rfl
  | cons setting rest ih => rw [List.foldl_cons, ih, formHelpText_set]

/-- What can be built are the fields without a help text. -/
theorem exists_build_iff {field : Field} :
    (∃ name kind settings, build name kind settings = field) ↔ field.formHelpText = none := by
  constructor
  · rintro ⟨name, kind, settings, rfl⟩
    exact formHelpText_foldl_set settings { name, kind }
  · intro hnone
    refine ⟨field.name, field.kind, field.settings, ?_⟩
    obtain ⟨name, displayName, formHelpText, kind, required, primaryKey, mainAttribute, sortKey, constraints⟩ := field
    obtain rfl : formHelpText = none := hnone
    cases displayName <;> cases sortKey <;> cases mainAttribute <;> rfl

/-! ### The members of the written form -/

/-- The members of the object that a field is written as. -/
def form (field : Field) : Members := field.toJson.asObject?.getD []

theorem toJson_eq (field : Field) : field.toJson = .obj field.form := rfl

/-- A member that may be left out is found at its own key only. -/
theorem get?_toList_map {α : Type} (key other : String) (value : Option α) (make : α → Json) :
    Assoc.get? (value.map fun a => (key, make a)).toList other = if key = other then value.map make else none := by
  cases value with
  | none => simp
  | some a => rfl

variable (field : Field)

section Form

attribute [local simp] form toJson Json.asObject?_obj Assoc.get? Assoc.get?_append get?_toList_map Parameter.kind
  Parameter.displayName Parameter.formHelpText Parameter.required Parameter.primaryKey Parameter.mainAttribute
  Parameter.sortKey Parameter.constraints

theorem get?_form_kind : field.form.get? Parameter.kind = some (.str field.kind.name) := by simp

theorem get?_form_displayName : field.form.get? Parameter.displayName = field.displayName.map Json.str := by simp

theorem get?_form_formHelpText : field.form.get? Parameter.formHelpText = field.formHelpText.map Json.str := by simp

theorem get?_form_required : field.form.get? Parameter.required = some (.bool field.required) := by simp

theorem get?_form_primaryKey : field.form.get? Parameter.primaryKey = some (.bool field.primaryKey) := by simp

theorem get?_form_mainAttribute :
    field.form.get? Parameter.mainAttribute = field.mainAttribute.map fun n => Json.int n.toInt := by simp

theorem get?_form_sortKey : field.form.get? Parameter.sortKey = field.sortKey.map fun n => Json.int n.toInt := by simp

theorem get?_form_constraints : field.form.get? Parameter.constraints = some (.obj field.constraints) := by simp

end Form

/-! ### Reading the form -/

/-- What is seen in every value that is written for a property is the property. -/
theorem bind_map_eq_self {α : Type} {make : α → Json} {view : Json → Option α} (hview : ∀ a, view (make a) = some a)
    (value : Option α) : (value.map make).bind view = value := by
  cases value with
  | none => rfl
  | some a => exact hview a

theorem ofMembers_form : ofMembers field.name field.form = .ok field := by
  have htext : ∀ value : Option String, (value.map Json.str).bind Json.asString? = value :=
    bind_map_eq_self fun _ => rfl
  have hnumber : ∀ value : Option Int64, (value.map fun n => Json.int n.toInt).bind int64? = value :=
    bind_map_eq_self int64?_toInt
  have hkind : (field.form.get? Parameter.kind).bind Json.asString? = some field.kind.name := by
    rw [get?_form_kind]
    rfl
  simp only [ofMembers, hkind, Kind.ofName?_name, get?_form_displayName, get?_form_formHelpText, get?_form_required,
    get?_form_primaryKey, get?_form_mainAttribute, get?_form_sortKey, get?_form_constraints, htext, hnumber]
  rfl

/-- A field is read back from the form that it is written in, and all fields without a help text can be built. -/
theorem written_read_back :
    ofParameters field.name field.toJson = .ok field ∧
      ((∃ name kind settings, build name kind settings = field) ↔ field.formHelpText = none) := by
  refine ⟨?_, exists_build_iff⟩
  rw [toJson_eq]
  exact field.ofMembers_form

-- A second name of a kind is read, and the first one is written.
example : ofParameters "active" (.obj [("type", .str "boolean")]) = ofParameters "active" (.obj [("type", .str "toggle")]) :=
  rfl

end Field

end AddressBook
