import AddressBook.Proofs.Document.Validation
import AddressBook.Proofs.Json.Shape
import AddressBook.Schema.Basic
import Mathlib.Data.List.Forall2
/-!
# Schemas of valid documents

Validation and loading read the parameters of a document on their own. On a valid document they agree: every entry is
loaded, as a field that has the values of its parameters. So a valid document describes a schema, and what validation
demands of the entries holds of the fields. Numbers are the exception: validation admits every whole number, while a field
has those only that fit 64 signed bits.
-/

namespace AddressBook

/-- A whole number fits 64 signed bits. -/
def Json.Signed (n : Int) : Prop := leastSigned ≤ n ∧ n < signedBound

theorem Json.asSigned?_eq_some_iff {value : Json} {n : Int} : value.asSigned? = some n ↔ value = .int n ∧ Signed n := by
  cases value with
  | int m =>
      by_cases hsigned : Signed m
      · have hshown : (leastSigned ≤ m && m < signedBound) = true := by simpa [Signed] using hsigned
        rw [asSigned?, if_pos hshown, Option.some.injEq, Json.int.injEq]
        exact ⟨fun heq => ⟨heq, heq ▸ hsigned⟩, And.left⟩
      · have hshown : ¬ (leastSigned ≤ m && m < signedBound) = true := by simpa [Signed] using hsigned
        rw [asSigned?, if_neg hshown, Json.int.injEq]
        exact ⟨nofun, fun ⟨heq, hm⟩ => absurd (heq ▸ hm) hsigned⟩
  | _ => simp [asSigned?]

theorem Field.map_toInt_int64? (value : Json) : (int64? value).map Int64.toInt = value.asSigned? := by
  rw [int64?, Option.map_map]
  cases hsigned : value.asSigned? with
  | none => rfl
  | some n =>
      obtain ⟨hleast, hbound⟩ := (Json.asSigned?_eq_some_iff.1 hsigned).2
      exact congrArg some (Int64.toInt_ofInt_of_le hleast hbound)

namespace Document

variable {α : Type} {params : Members} {key : String} {entry : Entry} {field : Field}

/-! ### Parameters -/

/-- Who sees nothing in `null` sees the same with and without it. -/
theorem bind_get?_eq_bind_param? {view : Json → Option α} (hnull : view .null = none) :
    (params.get? key).bind view = (param? params key).bind view := by
  rw [param?]
  cases params.get? key with
  | none => rfl
  | some value =>
      cases value with
      | null => exact hnull
      | _ => rfl

section Typed

variable {type : ParameterType} {view : Json → Option α} {make : α → Json}

/-- A view that gives every value of a type back, and sees nothing in `null`, gives a parameter of the type back. -/
theorem map_bind_get? (hnull : view .null = none) (hview : ∀ value, type.Holds value → (view value).map make = some value)
    (htyped : entry.Typed key type) : ((entry.params.get? key).bind view).map make = param? entry.params key := by
  rw [bind_get?_eq_bind_param? hnull]
  cases hparam : param? entry.params key with
  | none => rfl
  | some value => exact hview value (htyped value (has_iff.2 hparam))

theorem getD_bind_get? (hnull : view .null = none)
    (hview : ∀ value, type.Holds value → (view value).map make = some value) (htyped : entry.Typed key type)
    (default : α) :
    make (((entry.params.get? key).bind view).getD default) = (param? entry.params key).getD (make default) := by
  rw [← map_bind_get? hnull hview htyped, Option.getD_map]

end Typed

theorem map_str_asString? (value : Json) (hvalue : ParameterType.Holds .string value) :
    value.asString?.map Json.str = some value := by
  cases hvalue
  rfl

theorem map_bool_asBool? (value : Json) (hvalue : ParameterType.Holds .boolean value) :
    value.asBool?.map Json.bool = some value := by
  cases hvalue
  rfl

theorem map_obj_asObject? (value : Json) (hvalue : ParameterType.Holds .object value) :
    value.asObject?.map Json.obj = some value := by
  cases hvalue
  rfl

theorem flag_iff {flag : Bool} (hflag : Json.bool flag = (param? params key).getD (.bool false)) :
    flag = true ↔ Has params key (.bool true) := by
  rw [has_iff]
  cases hparam : param? params key with
  | none =>
      rw [hparam] at hflag
      simp [Json.bool.inj hflag]
  | some value =>
      rw [hparam, Option.getD_some] at hflag
      simp [← hflag]

/-- The number of 64 signed bits that a field has at a parameter. -/
def Entry.number? (entry : Entry) (key : String) : Option Int := (param? entry.params key).bind Json.asSigned?

theorem Entry.number?_eq_some_iff {n : Int} :
    entry.number? key = some n ↔ Has entry.params key (.int n) ∧ Json.Signed n := by
  rw [number?, Option.bind_eq_some_iff, has_iff]
  constructor
  · rintro ⟨value, hparam, hsigned⟩
    obtain ⟨rfl, hn⟩ := Json.asSigned?_eq_some_iff.1 hsigned
    exact ⟨hparam, hn⟩
  · rintro ⟨hparam, hn⟩
    exact ⟨_, hparam, Json.asSigned?_eq_some_iff.2 ⟨rfl, hn⟩⟩

theorem map_toInt_bind (entry : Entry) (key : String) :
    ((entry.params.get? key).bind Field.int64?).map Int64.toInt = entry.number? key := by
  rw [bind_get?_eq_bind_param? rfl, Option.map_bind, Entry.number?]
  exact congrArg _ (funext Field.map_toInt_int64?)

/-! ### Fields -/

/--
A field has the parameters of an entry, or else their defaults. A number counts only if it fits 64 signed bits.
-/
structure Entry.Reads (entry : Entry) (field : Field) : Prop where
  name : field.name = entry.name
  kind : ∃ name, Has entry.params Parameter.kind (.str name) ∧ Kind.Registered name field.kind
  displayName : field.displayName.map Json.str = param? entry.params Parameter.displayName
  formHelpText : field.formHelpText.map Json.str = param? entry.params Parameter.formHelpText
  required : Json.bool field.required = (param? entry.params Parameter.required).getD (.bool false)
  primaryKey : Json.bool field.primaryKey = (param? entry.params Parameter.primaryKey).getD (.bool false)
  mainAttribute : field.mainAttribute.map Int64.toInt = entry.number? Parameter.mainAttribute
  sortKey : field.sortKey.map Int64.toInt = entry.number? Parameter.sortKey
  constraints : Json.obj field.constraints = (param? entry.params Parameter.constraints).getD (.obj [])

theorem exists_reads (hsound : entry.Sound) :
    ∃ field, Field.ofParameters entry.member.1 entry.member.2 = .ok field ∧ entry.Reads field := by
  obtain ⟨name, kind, hname, hregistered, -⟩ := hsound.kind
  have hkind : (entry.params.get? Parameter.kind).bind Json.asString? = some name := by
    rw [hname.1]
    rfl
  change ∃ field, Field.ofMembers entry.name entry.params = .ok field ∧ _
  simp only [Field.ofMembers, hkind, Kind.ofName?_eq_some_iff.2 hregistered]
  exact ⟨_, rfl, {
    name := rfl
    kind := ⟨name, hname, hregistered⟩
    displayName := map_bind_get? rfl map_str_asString? hsound.displayName
    formHelpText := map_bind_get? rfl map_str_asString? hsound.formHelpText
    required := getD_bind_get? rfl map_bool_asBool? hsound.required false
    primaryKey := getD_bind_get? rfl map_bool_asBool? hsound.primaryKey false
    mainAttribute := map_toInt_bind entry _
    sortKey := map_toInt_bind entry _
    constraints := getD_bind_get? rfl map_obj_asObject? hsound.constraints [] }⟩

theorem Entry.Reads.primaryKey_iff (hreads : entry.Reads field) : field.primaryKey = true ↔ entry.IsPrimaryKey :=
  flag_iff hreads.primaryKey

theorem Entry.Reads.required_iff (hreads : entry.Reads field) : field.required = true ↔ entry.IsRequired :=
  flag_iff hreads.required

theorem Entry.Reads.fits (hreads : entry.Reads field) (hsound : entry.Sound) : entry.Fits field.kind := by
  obtain ⟨name, hname, hregistered⟩ := hreads.kind
  obtain ⟨own, kind, hown, hkind, hfits⟩ := hsound.kind
  obtain rfl : own = name := Json.str.inj (Option.some.inj (hown.1.symm.trans hname.1))
  rw [← Kind.ofName?_eq_some_iff] at hkind hregistered
  rw [hkind] at hregistered
  exact Option.some.inj hregistered ▸ hfits

theorem Entry.Reads.constraints_of_has (hreads : entry.Reads field) {constraints : Members}
    (hconstraints : Has entry.params Parameter.constraints (.obj constraints)) : field.constraints = constraints := by
  have hread := hreads.constraints
  rw [has_iff.1 hconstraints] at hread
  exact Json.obj.inj hread

theorem Entry.Reads.exists_innerKind (hreads : entry.Reads field) (hsound : entry.Sound) (hlist : field.kind = .list) :
    ∃ inner, field.innerKind? = some inner ∧ inner ≠ .list := by
  have hfits := hreads.fits hsound
  rw [hlist] at hfits
  obtain ⟨constraints, hconstraints, name, inner, hname, hinner, hne⟩ := hfits
  refine ⟨inner, ?_, hne⟩
  rw [Field.innerKind?, if_pos hlist, hreads.constraints_of_has hconstraints, hname.1]
  exact Kind.ofName?_eq_some_iff.2 hinner

theorem Entry.DifferAt.ne_of_number? {other : Entry} (hdiffer : entry.DifferAt key other) {m n : Int64}
    (hm : entry.number? key = some m.toInt) (hn : other.number? key = some n.toInt) : m ≠ n := by
  rintro rfl
  exact hdiffer _ _ (number?_eq_some_iff.1 hm).1 (number?_eq_some_iff.1 hn).1 rfl

/-! ### Documents -/

/-- A valid document, its entries, and the schema that it describes. -/
structure Describes (document : Json) (all : List Entry) (schema : Schema) : Prop where
  members : document = .obj (all.map Entry.member)
  sound : SoundEntries all
  loads : Schema.ofDocument document = .ok schema
  reads : List.Forall₂ Entry.Reads all schema.fields

theorem exists_fieldsOf {all : List Entry} (hsound : ∀ entry ∈ all, entry.Sound) :
    ∃ fields, Schema.fieldsOf (all.map Entry.member) = .ok fields ∧ List.Forall₂ Entry.Reads all fields := by
  induction all with
  | nil => exact ⟨[], rfl, .nil⟩
  | cons entry rest ih =>
      obtain ⟨hfirst, hrest⟩ := List.forall_mem_cons.1 hsound
      obtain ⟨field, hfield, hreads⟩ := exists_reads hfirst
      obtain ⟨fields, hfields, hothers⟩ := ih hrest
      refine ⟨field :: fields, ?_, .cons hreads hothers⟩
      rw [List.map_cons, Schema.fieldsOf, Except.bind_eq_ok_iff]
      exact ⟨field, hfield, Except.bind_eq_ok_iff.2 ⟨fields, hfields, rfl⟩⟩

theorem exists_describes {document : Json} (hvalid : validate document = .ok ()) :
    ∃ all schema, Describes document all schema := by
  obtain ⟨all, hentries⟩ := exists_entries_of_validate hvalid
  have hsound := (validate_eq_ok_iff_of_entries hentries).1 hvalid
  have hmembers := (entries_eq_ok_iff.1 hentries).1
  obtain ⟨fields, hfields, hreads⟩ := exists_fieldsOf hsound.fields
  refine ⟨all, { fields }, hmembers, hsound, ?_, hreads⟩
  rw [hmembers]
  exact Except.map_eq_ok_iff.2 ⟨fields, hfields, rfl⟩

section Describes

variable {document : Json} {all : List Entry} {schema : Schema}

/-- Entries and the fields that they are loaded as, side by side. -/
theorem Describes.exists_pairs (hdescribes : Describes document all schema) :
    ∃ pairs : List (Entry × Field), pairs.map Prod.fst = all ∧ pairs.map Prod.snd = schema.fields ∧
      ∀ pair ∈ pairs, pair.1.Reads pair.2 := by
  have hlength := hdescribes.reads.length_eq
  refine ⟨all.zip schema.fields, List.map_fst_zip (Nat.le_of_eq hlength), List.map_snd_zip (Nat.le_of_eq hlength.symm), ?_⟩
  exact fun pair hmem => List.forall₂_zip hdescribes.reads hmem

theorem Describes.names (hdescribes : Describes document all schema) :
    schema.fields.map Field.name = all.map Entry.name := by
  obtain ⟨pairs, rfl, hfields, hreads⟩ := hdescribes.exists_pairs
  rw [← hfields, List.map_map, List.map_map]
  exact List.map_congr_left fun pair hmem => (hreads pair hmem).name

theorem Describes.exists_entry (hdescribes : Describes document all schema) {field : Field}
    (hmem : field ∈ schema.fields) : ∃ entry ∈ all, entry.Reads field := by
  obtain ⟨pairs, rfl, hfields, hreads⟩ := hdescribes.exists_pairs
  rw [← hfields] at hmem
  obtain ⟨pair, hpair, rfl⟩ := List.mem_map.1 hmem
  exact ⟨pair.1, List.mem_map_of_mem hpair, hreads pair hpair⟩

theorem Describes.exists_primaryKey (hdescribes : Describes document all schema) :
    ∃ key, schema.fields.filter (·.primaryKey) = [key] ∧ key.required = true ∧ schema.primaryKey? = some key := by
  obtain ⟨pairs, rfl, hfields, hreads⟩ := hdescribes.exists_pairs
  obtain ⟨key, hkeys, hrequired⟩ := hasPrimaryKey_iff.1 hdescribes.sound.primaryKey
  rw [primaryKeys, List.filter_map] at hkeys
  obtain ⟨pair, hpair, rfl⟩ := List.map_eq_singleton_iff.1 hkeys
  have hmem : pair ∈ pairs := List.mem_of_mem_filter (hpair ▸ List.mem_singleton_self pair)
  have hfilter : schema.fields.filter (·.primaryKey) = [pair.2] := by
    have hsame : pairs.filter ((·.primaryKey) ∘ Prod.snd) = [pair] := by
      rw [← hpair]
      refine List.filter_congr fun other hother => Bool.eq_iff_iff.2 ?_
      exact (hreads other hother).primaryKey_iff.trans isTrue_iff.symm
    rw [← hfields, List.filter_map, hsame]
    rfl
  refine ⟨pair.2, hfilter, (hreads pair hmem).required_iff.2 hrequired, ?_⟩
  rw [Schema.primaryKey?, ← List.head?_filter, hfilter, List.head?_cons]

theorem Describes.nodup_numbers (hdescribes : Describes document all schema) {number : Field → Option Int64}
    (hread : ∀ entry field, Entry.Reads entry field → (number field).map Int64.toInt = entry.number? key)
    (hdiffer : all.Pairwise (Entry.DifferAt key)) : (schema.fields.filterMap number).Nodup := by
  obtain ⟨pairs, rfl, hfields, hreads⟩ := hdescribes.exists_pairs
  rw [← hfields, List.Nodup, List.pairwise_filterMap, List.pairwise_map]
  refine (List.pairwise_map.1 hdiffer).imp_of_mem fun {pair other} hpair hother hne m hm n hn => ?_
  refine hne.ne_of_number? ?_ ?_
  · rw [← hread _ _ (hreads pair hpair), hm]
    rfl
  · rw [← hread _ _ (hreads other hother), hn]
    rfl

end Describes

/-! ### Structure -/

/-- The schema has a field for each member, one primary key, lists with item kinds, and keys that no two fields share. -/
structure Structured (members : Members) (schema : Schema) : Prop where
  names : schema.fields.map Field.name = Assoc.keys members
  named : ∀ field ∈ schema.fields, field.name ≠ ""
  primaryKey : ∃ key, schema.fields.filter (·.primaryKey) = [key] ∧ key.required = true ∧ schema.primaryKey? = some key
  lists : ∀ field ∈ schema.fields, field.kind = .list → ∃ inner, field.innerKind? = some inner ∧ inner ≠ .list
  sortKeys : (schema.fields.filterMap Field.sortKey).Nodup
  mainAttributes : (schema.fields.filterMap Field.mainAttribute).Nodup

theorem Describes.structured {document : Json} {all : List Entry} {schema : Schema}
    (hdescribes : Describes document all schema) : Structured (all.map Entry.member) schema where
  names := by
    rw [hdescribes.names, Assoc.keys, List.map_map]
    rfl
  named field hmem := by
    obtain ⟨entry, hentry, hreads⟩ := hdescribes.exists_entry hmem
    rw [hreads.name]
    exact hdescribes.sound.named entry hentry
  primaryKey := hdescribes.exists_primaryKey
  lists field hmem hlist := by
    obtain ⟨entry, hentry, hreads⟩ := hdescribes.exists_entry hmem
    exact hreads.exists_innerKind (hdescribes.sound.fields entry hentry) hlist
  sortKeys := hdescribes.nodup_numbers (fun _ _ => Entry.Reads.sortKey) hdescribes.sound.sortKeys
  mainAttributes := hdescribes.nodup_numbers (fun _ _ => Entry.Reads.mainAttribute) hdescribes.sound.mainAttributes

/-- A document that has yet to be validated is refused by validation or not at all. -/
theorem ofNewDocument_eq_error_iff {document : Json} {fault : DocumentFault} :
    Schema.ofNewDocument document = .error fault ↔ validate document = .error fault := by
  rw [Schema.ofNewDocument, Except.bind_eq_error_iff]
  refine ⟨?_, .inl⟩
  rintro (hrefused | ⟨⟨⟩, hvalid, hfails⟩)
  · exact hrefused
  · obtain ⟨all, schema, hdescribes⟩ := exists_describes hvalid
    rw [hdescribes.loads] at hfails
    nomatch hfails

theorem Describes.ofNewDocument {document : Json} {all : List Entry} {schema : Schema}
    (hdescribes : Describes document all schema) (hvalid : validate document = .ok ()) :
    Schema.ofNewDocument document = .ok schema :=
  Except.then_eq_ok_iff.2 ⟨hvalid, hdescribes.loads⟩

/-- A valid document is loaded, and the schema that it describes has the structure that validation demands. -/
theorem structured_of_validate (document : Json) :
    (∀ fault, Schema.ofNewDocument document = .error fault ↔ validate document = .error fault) ∧
    (validate document = .ok () → ∃ members schema, document = .obj members ∧
      Schema.ofDocument document = .ok schema ∧ Schema.ofNewDocument document = .ok schema ∧
      Structured members schema ∧ (document.WellFormed → (schema.fields.map Field.name).Nodup)) := by
  refine ⟨fun fault => ofNewDocument_eq_error_iff, fun hvalid => ?_⟩
  obtain ⟨all, schema, hdescribes⟩ := exists_describes hvalid
  have hstructured := hdescribes.structured
  refine ⟨_, schema, hdescribes.members, hdescribes.loads, hdescribes.ofNewDocument hvalid, hstructured, fun hwell => ?_⟩
  rw [hdescribes.members] at hwell
  cases hwell with
  | obj hnodup _ =>
      rw [hstructured.names]
      exact hnodup

/-- A document with a primary key and a list of images. -/
def galleryDocument : Json :=
  .obj [
    ("id", .obj [("type", .str "integer"), ("primary_key", .bool true), ("required", .bool true), ("sort_key", .int 1)]),
    ("photos", .obj [("type", .str "list"), ("sort_key", .int 0), ("main_attribute", .null),
      ("additional_type_parameters", .obj [("inner_type", .str "image")])])]

theorem wellFormed_galleryDocument : galleryDocument.WellFormed := by
  refine .obj (by decide) (List.forall_mem_cons.2 ⟨.obj (by decide) ?_, List.forall_mem_singleton.2 (.obj (by decide) ?_)⟩)
  · simp only [List.forall_mem_cons]
    exact ⟨.str _, .bool _, .bool _, .int ⟨by decide, by decide⟩, nofun⟩
  · simp only [List.forall_mem_cons]
    exact ⟨.str _, .int ⟨by decide, by decide⟩, .null, .obj (by decide) (List.forall_mem_singleton.2 (.str _)), nofun⟩

theorem structured_of_validate_gallery :
    validate galleryDocument = .ok () ∧ galleryDocument.WellFormed ∧
    ∃ schema, Schema.ofNewDocument galleryDocument = .ok schema ∧ (schema.fields.map Field.name).Nodup ∧
      ∀ field ∈ schema.fields, field.kind = .list → ∃ inner, field.innerKind? = some inner ∧ inner ≠ .list := by
  have hvalid : validate galleryDocument = .ok () := rfl
  obtain ⟨_, schema, -, -, hnew, hstructured, hnodup⟩ := (structured_of_validate galleryDocument).2 hvalid
  exact ⟨hvalid, wellFormed_galleryDocument, schema, hnew, hnodup wellFormed_galleryDocument, hstructured.lists⟩

end Document

end AddressBook
