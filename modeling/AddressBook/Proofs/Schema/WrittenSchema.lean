import AddressBook.Proofs.Schema.Records
import AddressBook.Proofs.Schema.WrittenField
/-!
# Schemas as they are written

A schema is written as a document again, each field under its name. The document that is written describes the schema that
it was written from, and all of it is sound except what validation asks of constraints: a field is always written with
constraints, if only empty ones, and for an image or a toggle empty constraints are worse than none. So the document is
valid exactly if the images and toggles of the schema came with constraints.
-/

namespace AddressBook

open Document (Entry Has ImageConstraints ListConstraints SelectConstraints SoundEntries Structured ToggleConstraints
  has_iff validate)

/-! ### Fields as entries -/

namespace Field

/-- The entry of a document that a field is written as. -/
def entry (field : Field) : Entry := { name := field.name, params := field.form }

variable {field other : Field} {demand : Members → Prop}

theorem has_form_constraints_iff {constraints : Members} :
    Has field.form Parameter.constraints (.obj constraints) ↔ field.constraints = constraints := by
  simp [Has, get?_form_constraints]

theorem has_form_mainAttribute_iff {n : Int} :
    Has field.form Parameter.mainAttribute (.int n) ↔ ∃ key, field.mainAttribute = some key ∧ key.toInt = n := by
  simp [Has, get?_form_mainAttribute]

theorem has_form_sortKey_iff {n : Int} :
    Has field.form Parameter.sortKey (.int n) ↔ ∃ key, field.sortKey = some key ∧ key.toInt = n := by
  simp [Has, get?_form_sortKey]

theorem isPrimaryKey_entry_iff : field.entry.IsPrimaryKey ↔ field.primaryKey = true := by
  simp [Entry.IsPrimaryKey, entry, Has, get?_form_primaryKey]

theorem isRequired_entry_iff : field.entry.IsRequired ↔ field.required = true := by
  simp [Entry.IsRequired, entry, Has, get?_form_required]

theorem needs_entry_iff : field.entry.Needs demand ↔ demand field.constraints := by
  simp [Entry.Needs, entry, has_form_constraints_iff]

theorem allows_entry_iff : field.entry.Allows demand ↔ demand field.constraints := by
  simp [Entry.Allows, entry, has_form_constraints_iff]

theorem typed_entry {α : Type} {key : String} {type : ParameterType} {make : α → Json} {p : Option α}
    (hget : field.form.get? key = p.map make) (hmake : ∀ a, type.Holds (make a)) : field.entry.Typed key type := by
  intro own hown
  obtain ⟨a, -, rfl⟩ := Option.map_eq_some_iff.1 (hget.symm.trans hown.1)
  exact hmake a

theorem sound_entry_iff : field.entry.Sound ↔ field.entry.Fits field.kind := by
  constructor
  · intro hsound
    obtain ⟨name, kind, hname, hregistered, hfits⟩ := hsound.kind
    have hown : name = field.kind.name := by
      have hget := hname.1
      rw [show field.entry.params = field.form from rfl, get?_form_kind] at hget
      exact (Json.str.inj (Option.some.inj hget)).symm
    rw [← Kind.ofName?_eq_some_iff, hown, Kind.ofName?_name] at hregistered
    exact Option.some.inj hregistered ▸ hfits
  · intro hfits
    refine ⟨⟨field.kind.name, field.kind, ⟨field.get?_form_kind, nofun⟩, ?_, hfits⟩, ?_, ?_, ?_, ?_, ?_, ?_, ?_⟩
    · exact Kind.ofName?_eq_some_iff.1 (Kind.ofName?_name field.kind)
    · exact typed_entry field.get?_form_displayName .string
    · exact typed_entry field.get?_form_formHelpText .string
    · exact typed_entry (p := some field.required) field.get?_form_required .boolean
    · exact typed_entry (p := some field.primaryKey) field.get?_form_primaryKey .boolean
    · exact typed_entry field.get?_form_mainAttribute fun n => .integer n.toInt
    · exact typed_entry field.get?_form_sortKey fun n => .integer n.toInt
    · exact typed_entry (p := some field.constraints) field.get?_form_constraints .object

end Field

/-- The document that the fields of a schema are written as, in their order. -/
def Schema.toDocument (schema : Schema) : Json := .obj (schema.fields.map fun field => (field.name, field.toJson))

theorem Schema.toDocument_eq (schema : Schema) :
    schema.toDocument = .obj ((schema.fields.map Field.entry).map Entry.member) := by
  rw [toDocument, List.map_map]
  rfl

theorem Schema.ofDocument_toDocument (schema : Schema) :
    ofDocument schema.toDocument = .ok { fields := schema.fields } := by
  refine Except.map_eq_ok_iff.2 ⟨schema.fields, fieldsOf_eq_ok_iff.2 ?_, rfl⟩
  rw [List.forall₂_map_left_iff, List.forall₂_same]
  exact fun field _ => field.ofMembers_form

namespace Document

variable {entry : Entry} {field : Field} {kind : Kind} {members : Members} {schema : Schema}

/-! ### Entries that are loaded and written again -/

theorem not_imageConstraints_nil : ¬ ImageConstraints [] := by
  rintro ⟨_, _, hget, -⟩
  cases hget

theorem not_toggleConstraints_nil : ¬ ToggleConstraints [] := by
  intro htoggle
  obtain ⟨_, ⟨hget, -⟩ | ⟨hget, -⟩⟩ := htoggle.defined <;> cases hget

/-- The kind that an entry names. -/
def Entry.OfKind (entry : Entry) (kind : Kind) : Prop :=
  ∃ name, Has entry.params Parameter.kind (.str name) ∧ Kind.Registered name kind

/-- An entry has constraints, if only empty ones. -/
def Entry.Constrained (entry : Entry) : Prop := ∃ constraints, Has entry.params Parameter.constraints (.obj constraints)

theorem Entry.Reads.ofKind_iff (hreads : entry.Reads field) : entry.OfKind kind ↔ field.kind = kind := by
  obtain ⟨own, hown, hregistered⟩ := hreads.kind
  constructor
  · rintro ⟨name, hname, hkind⟩
    obtain rfl := Json.str.inj (Option.some.inj (hown.1.symm.trans hname.1))
    rw [← Kind.ofName?_eq_some_iff] at hregistered hkind
    exact Option.some.inj (hregistered.symm.trans hkind)
  · rintro rfl
    exact ⟨own, hown, hregistered⟩

theorem Entry.Reads.constraints_eq_nil (hreads : entry.Reads field) (hsound : entry.Sound)
    (hnone : ¬ entry.Constrained) : field.constraints = [] := by
  have hread := hreads.constraints
  cases hparam : param? entry.params Parameter.constraints with
  | none =>
      rw [hparam] at hread
      exact Json.obj.inj hread
  | some value =>
      cases hsound.constraints value (has_iff.2 hparam) with
      | object own => exact absurd ⟨own, has_iff.2 hparam⟩ hnone

theorem Entry.Reads.fits_entry (hreads : entry.Reads field)
    (hconstraints : Has entry.params Parameter.constraints (.obj field.constraints)) (hfits : entry.Fits kind) :
    field.entry.Fits kind := by
  cases kind with
  | list =>
      obtain ⟨constraints, hown, hlist⟩ := hfits
      exact Field.needs_entry_iff.2 (hreads.constraints_of_has hown ▸ hlist)
  | select =>
      obtain ⟨constraints, hown, hselect⟩ := hfits
      exact Field.needs_entry_iff.2 (hreads.constraints_of_has hown ▸ hselect)
  | image => exact Field.allows_entry_iff.2 (hfits _ hconstraints)
  | toggle => exact Field.allows_entry_iff.2 (hfits _ hconstraints)
  | integer | str | longStr | url | email => trivial

/-- Only images and toggles may go without constraints that they cannot have empty. -/
theorem Entry.Reads.fits_entry_iff (hreads : entry.Reads field) (hsound : entry.Sound) :
    field.entry.Fits field.kind ↔ (entry.OfKind .image ∨ entry.OfKind .toggle → entry.Constrained) := by
  have hfits := hreads.fits hsound
  by_cases hconstrained : entry.Constrained
  · obtain ⟨constraints, hconstraints⟩ := hconstrained
    have hown := hreads.constraints_of_has hconstraints
    exact iff_of_true (hreads.fits_entry (hown ▸ hconstraints) hfits) fun _ => ⟨constraints, hconstraints⟩
  · have hempty := hreads.constraints_eq_nil hsound hconstrained
    rw [hreads.ofKind_iff, hreads.ofKind_iff]
    cases hkind : field.kind with
    | list | select =>
        rw [hkind] at hfits
        obtain ⟨constraints, hconstraints, -⟩ := hfits
        exact absurd ⟨constraints, hconstraints⟩ hconstrained
    | image =>
        refine iff_of_false (fun himage => ?_) fun hneeds => hconstrained (hneeds (.inl rfl))
        exact not_imageConstraints_nil (hempty ▸ Field.allows_entry_iff.1 himage)
    | toggle =>
        refine iff_of_false (fun htoggle => ?_) fun hneeds => hconstrained (hneeds (.inr rfl))
        exact not_toggleConstraints_nil (hempty ▸ Field.allows_entry_iff.1 htoggle)
    | integer | str | longStr | url | email => exact iff_of_true trivial fun hkinds => by simp at hkinds

/-! ### Schemas that are written again -/

theorem differAt_entry {key : String} {number : Field → Option Int64} {field other : Field}
    (hhas : ∀ (field : Field) (n : Int), Has field.form key (.int n) ↔ ∃ own, number field = some own ∧ own.toInt = n)
    (hdiffer : ∀ m, number field = some m → ∀ n, number other = some n → m ≠ n) : field.entry.DifferAt key other.entry := by
  intro m n hm hn heq
  obtain ⟨own, hown, rfl⟩ := (hhas field m).1 hm
  obtain ⟨its, hits, rfl⟩ := (hhas other n).1 hn
  exact hdiffer own hown its hits (Int64.toInt_inj.1 heq)

/-- What a document demands across its fields holds of the fields that are written. -/
theorem Structured.soundEntries_iff (hstructured : Structured members schema) :
    SoundEntries (schema.fields.map Field.entry) ↔ ∀ field ∈ schema.fields, field.entry.Fits field.kind := by
  refine ⟨fun hsound field hmem => ?_, fun hfits => ⟨?_, ?_, ?_, ?_, ?_⟩⟩
  · exact Field.sound_entry_iff.1 (hsound.fields field.entry (List.mem_map_of_mem hmem))
  · exact List.forall_mem_map.2 hstructured.named
  · obtain ⟨key, hkeys, hrequired, -⟩ := hstructured.primaryKey
    refine hasPrimaryKey_iff.2 ⟨key.entry, ?_, Field.isRequired_entry_iff.2 hrequired⟩
    have hmarked : schema.fields.filter ((fun entry => isTrue entry.params Parameter.primaryKey) ∘ Field.entry) =
        schema.fields.filter (·.primaryKey) :=
      List.filter_congr fun field _ => Bool.eq_iff_iff.2 (isTrue_iff.trans Field.isPrimaryKey_entry_iff)
    rw [primaryKeys, List.filter_map, hmarked, hkeys]
    rfl
  · exact List.forall_mem_map.2 fun field hmem => Field.sound_entry_iff.2 (hfits field hmem)
  · refine List.pairwise_map.2 ((List.pairwise_filterMap.1 hstructured.sortKeys).imp fun hdiffer => ?_)
    exact differAt_entry (fun _ _ => Field.has_form_sortKey_iff) hdiffer
  · refine List.pairwise_map.2 ((List.pairwise_filterMap.1 hstructured.mainAttributes).imp fun hdiffer => ?_)
    exact differAt_entry (fun _ _ => Field.has_form_mainAttribute_iff) hdiffer

theorem Structured.validate_toDocument_iff (hstructured : Structured members schema) :
    validate schema.toDocument = .ok () ↔ ∀ field ∈ schema.fields, field.entry.Fits field.kind := by
  have hentries : entries schema.toDocument = .ok (schema.fields.map Field.entry) :=
    entries_eq_ok_iff.2 ⟨schema.toDocument_eq, List.forall_mem_map.2 hstructured.named⟩
  rw [validate_eq_ok_iff_of_entries hentries, hstructured.soundEntries_iff]

/-- A written document is loaded as its schema, and valid exactly if images and toggles have constraints. -/
theorem written_valid_iff (document : Json) (hvalid : validate document = .ok ()) :
    ∃ (all : List Entry) (schema : Schema), document = .obj (all.map Entry.member) ∧ Schema.ofNewDocument document = .ok schema ∧
      Schema.ofDocument schema.toDocument = .ok schema ∧
      (validate schema.toDocument = .ok () ↔
        ∀ entry ∈ all, entry.OfKind .image ∨ entry.OfKind .toggle → entry.Constrained) ∧
      ((∀ entry ∈ all, entry.OfKind .image ∨ entry.OfKind .toggle → entry.Constrained) →
        Schema.ofNewDocument schema.toDocument = .ok schema) := by
  obtain ⟨all, schema, hdescribes⟩ := exists_describes hvalid
  have hloads : Schema.ofDocument schema.toDocument = .ok schema := by
    obtain ⟨fields, -, rfl⟩ := Except.map_eq_ok_iff.1 (hdescribes.members ▸ hdescribes.loads)
    exact Schema.ofDocument_toDocument _
  have hwritten : validate schema.toDocument = .ok () ↔
      ∀ entry ∈ all, entry.OfKind .image ∨ entry.OfKind .toggle → entry.Constrained := by
    rw [hdescribes.structured.validate_toDocument_iff]
    obtain ⟨pairs, rfl, hfields, hreads⟩ := hdescribes.exists_pairs
    rw [← hfields, List.forall_mem_map, List.forall_mem_map]
    refine forall₂_congr fun pair hmem => ?_
    exact (hreads pair hmem).fits_entry_iff (hdescribes.sound.fields pair.1 (List.mem_map_of_mem hmem))
  refine ⟨all, schema, hdescribes.members, hdescribes.ofNewDocument hvalid, hloads, hwritten, fun hconstrained => ?_⟩
  exact Except.then_eq_ok_iff.2 ⟨hwritten.2 hconstrained, hloads⟩

/-- A document with an image and a toggle that have constraints; the toggle goes by its second name. -/
def catalogDocument : Json :=
  .obj [
    ("id", .obj [("type", .str "integer"), ("primary_key", .bool true), ("required", .bool true)]),
    ("cover", .obj [("type", .str "image"), ("additional_type_parameters", .obj [("accepted_types", .arr [.str "png"])])]),
    ("sold", .obj [("type", .str "boolean"), ("additional_type_parameters", .obj [("value_true", .str "yes")])])]

theorem written_valid_iff_catalog :
    validate catalogDocument = .ok () ∧ ∃ schema, Schema.ofNewDocument catalogDocument = .ok schema ∧
      validate schema.toDocument = .ok () ∧ Schema.ofNewDocument schema.toDocument = .ok schema := by
  have hvalid : validate catalogDocument = .ok () := rfl
  obtain ⟨all, schema, -, hnew, hloads, hwritten, hagain⟩ := written_valid_iff catalogDocument hvalid
  obtain rfl := Except.ok.inj hnew
  exact ⟨hvalid, _, hnew, rfl, hagain (hwritten.1 rfl)⟩

/-- A document with an image that has no constraints. -/
def portraitDocument : Json :=
  .obj [
    ("id", .obj [("type", .str "integer"), ("primary_key", .bool true), ("required", .bool true)]),
    ("photo", .obj [("type", .str "image")])]

/-- A valid document that is written as one that is not. -/
theorem portrait_written_invalid :
    validate portraitDocument = .ok () ∧ ∃ schema, Schema.ofNewDocument portraitDocument = .ok schema ∧
      validate schema.toDocument = .error (.acceptedTypesUnusable "photo") :=
  ⟨rfl, _, rfl, rfl⟩

end Document

end AddressBook
