import AddressBook.Proofs.Document.Nulls
import AddressBook.Proofs.Schema.Checking
import AddressBook.Proofs.Schema.Records
import AddressBook.Schema.Layout
/-!
# Nulls in what a schema is loaded from

The loader and the checks read `null` as absent too, each in its own way: the loader takes a parameter only if it has the
type it looks for, and so do the checks with a constraint. So the schema of a document without its nulls differs from the
schema of the document in the constraints only that are `null`, and no check, no reference to a file and no layout shows
the difference.
-/

namespace AddressBook

open Document (dropNulls mapObject param? prune pruneParams validate)

variable {constraints params : Members}

/-- Who sees nothing in `null` sees the same where the nulls are left out. -/
theorem bind_get?_dropNulls {α : Type} {view : Json → Option α} (hnull : view .null = none)
    (hnodup : constraints.keys.Nodup) (key : String) :
    ((dropNulls constraints).get? key).bind view = (constraints.get? key).bind view := by
  rw [Document.get?_dropNulls hnodup, Document.bind_get?_eq_bind_param? hnull]

theorem bind_get?_pruneParams {α : Type} {view : Json → Option α} (hnull : view .null = none)
    (hnodup : params.keys.Nodup) {key : String} (hkey : key ≠ Parameter.constraints) :
    ((pruneParams params).get? key).bind view = (params.get? key).bind view := by
  rw [Document.get?_pruneParams_of_ne hnodup hkey, Document.bind_get?_eq_bind_param? hnull]

/-! ### Kinds -/

namespace Kind

theorem itemRule_dropNulls (hnodup : constraints.keys.Nodup) : itemRule (dropNulls constraints) = itemRule constraints := by
  rw [itemRule, itemRule, bind_get?_dropNulls rfl hnodup]

theorem acceptedExtensions?_dropNulls (hnodup : constraints.keys.Nodup) :
    acceptedExtensions? (dropNulls constraints) = acceptedExtensions? constraints := by
  rw [acceptedExtensions?, acceptedExtensions?, Document.get?_dropNulls hnodup, param?]
  cases constraints.get? Constraint.acceptedTypes with
  | none => rfl
  | some value => cases value <;> rfl

theorem check_dropNulls (hnodup : constraints.keys.Nodup) (policy : UntypedLists) (kind : Kind) (value : Json) :
    check (dropNulls constraints) policy kind value = check constraints policy kind value :=
  check_congr_constraints (itemRule_dropNulls hnodup) (acceptedExtensions?_dropNulls hnodup) policy kind value

end Kind

/-! ### Fields -/

namespace Field

/-- The field without the constraints that are `null`. -/
def prune (field : Field) : Field := { field with constraints := dropNulls field.constraints }

variable {field : Field}

theorem check_prune (hnodup : field.constraints.keys.Nodup) (policy : UntypedLists) (value : Option Json) :
    field.prune.check policy value = field.check policy value := by
  rw [check, check]
  cases value.filter (!·.isEmpty) with
  | none => rfl
  | some value =>
      dsimp only [prune]
      rw [Kind.check_dropNulls hnodup]

theorem referredFiles_prune (hnodup : field.constraints.keys.Nodup) (value : Json) :
    field.prune.referredFiles value = field.referredFiles value := by
  have hinner : field.prune.innerKind? = field.innerKind? := by
    rw [innerKind?, innerKind?]
    dsimp only [prune]
    rw [bind_get?_dropNulls rfl hnodup]
    rfl
  rw [referredFiles, referredFiles, hinner]
  rfl

theorem ofMembers_prune (hnodup : params.keys.Nodup) (name : String) :
    ofMembers name (pruneParams params) = (ofMembers name params).map prune := by
  refine ofMembers_congr rfl (fun _ => bind_get?_pruneParams rfl hnodup) (fun _ => bind_get?_pruneParams rfl hnodup)
    (fun _ => bind_get?_pruneParams rfl hnodup) ?_ name
  rw [Document.get?_pruneParams_constraints hnodup, Document.bind_get?_eq_bind_param? rfl]
  cases param? params Parameter.constraints with
  | none => rfl
  | some value => cases value <;> rfl

theorem constraints_of_ofMembers {name : String} (hloads : ofMembers name params = .ok field) :
    field.constraints = ((params.get? Parameter.constraints).bind Json.asObject?).getD [] := by
  rw [ofMembers] at hloads
  split at hloads
  · cases hloads
  · split at hloads
    · cases hloads
    · rw [← Except.ok.inj hloads]

theorem nodup_keys_constraints {name : String} (hwell : (Json.obj params).WellFormed)
    (hloads : ofMembers name params = .ok field) : field.constraints.keys.Nodup := by
  rw [constraints_of_ofMembers hloads]
  cases hget : params.get? Parameter.constraints with
  | none => exact List.nodup_nil
  | some value =>
      cases value with
      | obj own => exact (hwell.member (Assoc.mem_of_get?_eq_some hget)).nodup_keys
      | _ => exact List.nodup_nil

end Field

/-! ### Schemas -/

namespace Schema

/-- Nothing that is done with a schema tells it from the other one. -/
structure SeenAlike (schema other : Schema) : Prop where
  check : ∀ (policy : UntypedLists) (record : Members) (skip : List String),
    { other with policy }.check record skip = { schema with policy }.check record skip
  referredFiles : ∀ record : Members, other.referredFiles record = schema.referredFiles record
  layout : other.layout = schema.layout

def prune (schema : Schema) : Schema := { schema with fields := schema.fields.map Field.prune }

variable {schema : Schema}

theorem map_name_mergeSort_prune {key : Field → Option Int64} (hkey : ∀ field, key field.prune = key field)
    (fields : List Field) :
    ((fields.map Field.prune).mergeSort fun a b => Layout.keyLE (key a) (key b)).map Field.name =
      (fields.mergeSort fun a b => Layout.keyLE (key a) (key b)).map Field.name := by
  have hsort : (fields.mergeSort fun a b => Layout.keyLE (key a) (key b)).map Field.prune =
      (fields.map Field.prune).mergeSort fun a b => Layout.keyLE (key a) (key b) := by
    refine List.map_mergeSort fun a _ b _ => ?_
    rw [hkey, hkey]
  rw [← hsort, List.map_map]
  rfl

theorem layout_prune (schema : Schema) : schema.prune.layout = schema.layout := by
  have hkey : schema.prune.primaryKey? = schema.primaryKey?.map Field.prune := List.find?_map ..
  have hmain : schema.prune.fields.filter (·.mainAttribute.isSome) =
      (schema.fields.filter (·.mainAttribute.isSome)).map Field.prune := List.filter_map
  rw [layout, layout, hkey, Option.map_map, hmain, map_name_mergeSort_prune fun _ => rfl]
  congr 1
  exact map_name_mergeSort_prune (fun _ => rfl) schema.fields

/-- With distinct keys in the constraints, leaving out their nulls is not seen. -/
theorem seenAlike_prune (hnodup : ∀ field ∈ schema.fields, field.constraints.keys.Nodup) :
    schema.SeenAlike schema.prune where
  check policy record skip := by
    have hfilter : schema.prune.fields.filter (!skip.contains ·.name) =
        (schema.fields.filter (!skip.contains ·.name)).map Field.prune := List.filter_map
    rw [Schema.check, Schema.check, hfilter]
    refine checkFields_congr fun field hmem => ?_
    exact Field.check_prune (hnodup field (List.mem_of_mem_filter hmem)) policy (record.get? field.name)
  referredFiles record := by
    rw [Schema.referredFiles, Schema.referredFiles, prune, List.flatMap_map]
    refine List.flatMap_congr fun field hmem => ?_
    dsimp only [Field.prune]
    cases record.get? field.name with
    | none => rfl
    | some value => exact Field.referredFiles_prune (hnodup field hmem) value
  layout := schema.layout_prune

theorem ofDocument_prune {document : Json} (hwell : document.WellFormed) :
    ofDocument (Document.prune document) = (ofDocument document).map prune := by
  cases document with
  | obj members =>
      have hfields := @fieldsOf_congr members (mapObject pruneParams) Field.prune fun member hmem => by
        cases hparams : member.2 with
        | obj params => exact Field.ofMembers_prune (hparams ▸ hwell.member hmem).nodup_keys member.1
        | _ => rfl
      rw [Document.prune, mapObject, ofDocument, ofDocument, hfields]
      cases fieldsOf members <;> rfl
  | _ => rfl

theorem nodup_keys_constraints {document : Json} (hwell : document.WellFormed) (hloads : ofDocument document = .ok schema) :
    ∀ field ∈ schema.fields, field.constraints.keys.Nodup := by
  cases document with
  | obj members =>
      obtain ⟨fields, hfields, rfl⟩ := Except.map_eq_ok_iff.1 hloads
      intro field hmem
      obtain ⟨member, hmember, hloaded⟩ := exists_member_of_mem hfields hmem
      cases hparams : member.2 with
      | obj params =>
          rw [hparams] at hloaded
          exact Field.nodup_keys_constraints (hparams ▸ hwell.member hmember) hloaded
      | _ => simp [hparams, Field.ofParameters] at hloaded
  | _ => cases hloads

/-- A document without its nulls is validated alike, and loaded as a schema that does the same. -/
theorem nulls_unseen (document : Json) (hwell : document.WellFormed) :
    validate (Document.prune document) = validate document ∧
      ((∃ fault, ofDocument document = .error fault ∧ ofDocument (Document.prune document) = .error fault) ∨
        ∃ schema other, ofDocument document = .ok schema ∧ ofDocument (Document.prune document) = .ok other ∧
          schema.SeenAlike other) := by
  refine ⟨Document.validate_prune hwell, ?_⟩
  rw [ofDocument_prune hwell]
  cases hloads : ofDocument document with
  | error fault => exact .inl ⟨fault, rfl, rfl⟩
  | ok schema => exact .inr ⟨schema, schema.prune, rfl, rfl, seenAlike_prune (nodup_keys_constraints hwell hloads)⟩

/-- A document with a sort key that is `null`, and with one `null` among the texts of a toggle. -/
def sparseDocument : Json :=
  .obj [
    ("id", .obj [("type", .str "integer"), ("primary_key", .bool true), ("required", .bool true), ("sort_key", .null)]),
    ("sold", .obj [("type", .str "toggle"),
      ("additional_type_parameters", .obj [("value_false", .null), ("value_true", .str "yes")])])]

theorem wellFormed_sparseDocument : sparseDocument.WellFormed := by
  refine .obj (by decide) (List.forall_mem_cons.2 ⟨.obj (by decide) ?_, List.forall_mem_singleton.2 (.obj (by decide) ?_)⟩)
  · simp only [List.forall_mem_cons]
    exact ⟨.str _, .bool _, .bool _, .null, nofun⟩
  · simp only [List.forall_mem_cons]
    exact ⟨.str _, .obj (by decide) (List.forall_mem_cons.2 ⟨.null, List.forall_mem_singleton.2 (.str _)⟩), nofun⟩

theorem nulls_unseen_sparse :
    sparseDocument.WellFormed ∧
    Document.prune sparseDocument = .obj [
      ("id", .obj [("type", .str "integer"), ("primary_key", .bool true), ("required", .bool true)]),
      ("sold", .obj [("type", .str "toggle"), ("additional_type_parameters", .obj [("value_true", .str "yes")])])] ∧
    validate (Document.prune sparseDocument) = .ok () ∧
    ∃ schema other, ofDocument sparseDocument = .ok schema ∧ ofDocument (Document.prune sparseDocument) = .ok other ∧
      schema.SeenAlike other := by
  obtain ⟨hvalid, hloads⟩ := nulls_unseen sparseDocument wellFormed_sparseDocument
  rcases hloads with ⟨fault, hfault, -⟩ | hloads
  · cases hfault
  · exact ⟨wellFormed_sparseDocument, rfl, hvalid.trans rfl, hloads⟩

end Schema

end AddressBook
