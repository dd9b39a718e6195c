import AddressBook.Proofs.Schema.Checking
import Mathlib.Data.List.Forall2
/-!
# What has influence on a check

A check looks at the name, the kind and the requirement of a field, at the kind that its constraints name for the items of
lists and at the extensions that they accept for images. What a field is shown as, where it is placed and whatever else its
constraints say is for those who display records: the check of a record cannot be told from that of another schema that
differs there, and the values that a selection allows restrict nothing. Of the record it sees what stands under the names of
the fields that are not skipped.
-/

namespace AddressBook

namespace Field

/-- Two fields ask the same of a value. -/
structure AsksSame (field other : Field) : Prop where
  name : other.name = field.name
  kind : other.kind = field.kind
  required : other.required = field.required
  innerType : (other.constraints.get? Constraint.innerType).bind Json.asString? =
    (field.constraints.get? Constraint.innerType).bind Json.asString?
  acceptedTypes : other.constraints.get? Constraint.acceptedTypes = field.constraints.get? Constraint.acceptedTypes

variable {field other : Field}

theorem AsksSame.check (hsame : field.AsksSame other) (policy : UntypedLists) (value : Option Json) :
    other.check policy value = field.check policy value := by
  have hrule : Kind.itemRule other.constraints = Kind.itemRule field.constraints := by
    rw [Kind.itemRule, Kind.itemRule, hsame.innerType]
  have hextensions : Kind.acceptedExtensions? other.constraints = Kind.acceptedExtensions? field.constraints := by
    rw [Kind.acceptedExtensions?, Kind.acceptedExtensions?, hsame.acceptedTypes]
  rw [Field.check, Field.check, hsame.name, hsame.kind, hsame.required]
  cases value.filter (!·.isEmpty) with
  | none => rfl
  | some own =>
      dsimp only
      rw [Kind.check_congr_constraints hrule hextensions]

theorem asksSame_of_get? {constraints : Members}
    (hget : ∀ key ∈ [Constraint.innerType, Constraint.acceptedTypes], constraints.get? key = field.constraints.get? key)
    (displayName formHelpText : Option String) (primaryKey : Bool) (mainAttribute sortKey : Option Int64) :
    field.AsksSame { field with displayName, formHelpText, primaryKey, mainAttribute, sortKey, constraints } where
  name := rfl
  kind := rfl
  required := rfl
  innerType := congrArg (Option.bind · Json.asString?) (hget _ List.mem_cons_self)
  acceptedTypes := hget _ (List.mem_cons_of_mem _ List.mem_cons_self)

end Field

namespace Schema

variable {schema other : Schema} {record record' : Members} {skip : List String}

theorem check_of_asksSame (hfields : List.Forall₂ Field.AsksSame schema.fields other.fields)
    (hpolicy : other.policy = schema.policy)
    (hrecord : ∀ field ∈ schema.fields, field.name ∉ skip → record'.get? field.name = record.get? field.name) :
    other.check record' skip = schema.check record skip := by
  have hchecked : List.Forall₂ Field.AsksSame (schema.fields.filter (!skip.contains ·.name))
      (other.fields.filter (!skip.contains ·.name)) := by
    refine List.rel_filter (fun field asked hsame => ?_) hfields
    simp only [hsame.name]
  have hagrees : ∀ field ∈ schema.fields.filter (!skip.contains ·.name),
      record'.get? field.name = record.get? field.name := by
    intro field hmem
    obtain ⟨hfield, hname⟩ := List.mem_filter.1 hmem
    exact hrecord field hfield (by simpa using hname)
  rw [check, check, hpolicy]
  refine checkFields_congr_of_forall₂ ?_
  refine ((List.forall₂_and_left ..).2 ⟨hagrees, hchecked⟩).imp fun field asked hpair => ?_
  rw [hpair.2.name, hpair.1, hpair.2.check]

/-- A check sees what the fields ask, in their order, and of the record what stands under names not skipped. -/
theorem check_sees_demands_only (hfields : List.Forall₂ Field.AsksSame schema.fields other.fields)
    (hpolicy : other.policy = schema.policy)
    (hrecord : ∀ field ∈ schema.fields, field.name ∉ skip → record'.get? field.name = record.get? field.name) :
    other.check record' skip = schema.check record skip ∧
    (∀ (field : Field) (displayName formHelpText : Option String) (primaryKey : Bool) (mainAttribute sortKey : Option Int64)
      (key : String) (value : Json), key ∉ [Constraint.innerType, Constraint.acceptedTypes] →
      field.AsksSame { field with
        displayName, formHelpText, primaryKey, mainAttribute, sortKey, constraints := field.constraints.insert key value } ∧
      field.AsksSame { field with
        displayName, formHelpText, primaryKey, mainAttribute, sortKey, constraints := field.constraints.erase key }) ∧
    ∀ (name : String) (value : Json), (∀ field ∈ schema.fields, field.name = name → name ∈ skip) →
      schema.check (record.insert name value) skip = schema.check record skip ∧
        schema.check (record.erase name) skip = schema.check record skip := by
  refine ⟨check_of_asksSame hfields hpolicy hrecord, ?_, ?_⟩
  · intro field displayName formHelpText primaryKey mainAttribute sortKey key value hkey
    have hother : ∀ seen ∈ [Constraint.innerType, Constraint.acceptedTypes], seen ≠ key :=
      fun seen hmem heq => hkey (heq ▸ hmem)
    exact ⟨Field.asksSame_of_get? (fun seen hmem => Assoc.get?_insert_of_ne _ _ (hother seen hmem)) ..,
      Field.asksSame_of_get? (fun seen hmem => Assoc.get?_erase_of_ne _ (hother seen hmem)) ..⟩
  · intro name value hskipped
    have haway : ∀ field ∈ schema.fields, field.name ∉ skip → field.name ≠ name :=
      fun field hmem hname heq => hname (heq ▸ hskipped field hmem heq)
    have hsame : List.Forall₂ Field.AsksSame schema.fields schema.fields :=
      List.forall₂_same.2 fun field _ => ⟨rfl, rfl, rfl, rfl, rfl⟩
    exact ⟨check_of_asksSame hsame rfl fun field hmem hname => Assoc.get?_insert_of_ne _ _ (haway field hmem hname),
      check_of_asksSame hsame rfl fun field hmem hname => Assoc.get?_erase_of_ne _ (haway field hmem hname)⟩

/-- A list of images and a selection of one value. -/
def albumSchema : Schema where
  fields := [
    { name := "status", kind := .select, constraints := [(Constraint.allowedValues, .arr [.str "new"])] },
    { name := "photos", kind := .list, required := true,
      constraints := [(Constraint.innerType, .str "image"), (Constraint.acceptedTypes, .arr [.str "png"])] }]

/-- The same as other people see it, with another selection. -/
def displayedAlbumSchema : Schema where
  fields := [
    { name := "status", kind := .select, displayName := some "State", sortKey := some 2, primaryKey := true,
      constraints := [(Constraint.allowedValues, .arr [.str "old"]), (Constraint.innerType, .int 1)] },
    { name := "photos", kind := .list, required := true, formHelpText := some "Add photos", mainAttribute := some 1,
      constraints := [(Constraint.valueTrue, .null), (Constraint.acceptedTypes, .arr [.str "png"]), ("size", .int 3),
        (Constraint.innerType, .str "image")] }]

theorem check_sees_demands_only_album :
    List.Forall₂ Field.AsksSame albumSchema.fields displayedAlbumSchema.fields ∧
    displayedAlbumSchema.check [("photos", .arr [.str "cover"]), ("status", .str "sold")] [] =
      .error (.wrongType "photos" .image) ∧
    displayedAlbumSchema.check [("size", .int 9), ("photos", .null), ("status", .str "sold")] ["photos"] = .ok () := by
  have hfields : List.Forall₂ Field.AsksSame albumSchema.fields displayedAlbumSchema.fields :=
    .cons ⟨rfl, rfl, rfl, rfl, rfl⟩ (.cons ⟨rfl, rfl, rfl, rfl, rfl⟩ .nil)
  refine ⟨hfields, ?_, ?_⟩
  · have hseen := @check_sees_demands_only albumSchema displayedAlbumSchema
      [("status", .str "sold"), ("note", .null), ("photos", .arr [.str "cover"])]
      [("photos", .arr [.str "cover"]), ("status", .str "sold")] [] hfields rfl
      (List.forall_mem_cons.2 ⟨fun _ => rfl, List.forall_mem_singleton.2 fun _ => rfl⟩)
    exact hseen.1.trans rfl
  · have hseen := @check_sees_demands_only albumSchema displayedAlbumSchema [("status", .str "sold")]
      [("size", .int 9), ("photos", .null), ("status", .str "sold")] ["photos"] hfields rfl
      (List.forall_mem_cons.2 ⟨fun _ => rfl,
        List.forall_mem_singleton.2 fun hname => absurd List.mem_cons_self hname⟩)
    exact hseen.1.trans rfl

end Schema

end AddressBook
