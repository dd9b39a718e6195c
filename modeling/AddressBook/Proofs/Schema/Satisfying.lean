import AddressBook.Proofs.Schema.Loading
import AddressBook.Proofs.Schema.Records
import AddressBook.Proofs.Text.Lowercase
/-!
# Schemas that some record fits

A valid document asks for nothing that no record has, except where it asks for images. The extension of a path is what
stands after its last point, so it has no point, and neither has its lower-case form. An accepted extension that has a
point is therefore the extension of no path. If there is nothing else that the constraints accept, no path is an image,
and if such a field is required, no record fits the schema. For every other field that is required there is a value.
-/

namespace AddressBook

/-- If there is an array of extensions that is not empty, one of its texts has no point. -/
def Kind.SomeExtension (constraints : Members) : Prop :=
  ∀ types, constraints.get? Constraint.acceptedTypes = some (.arr types) → types ≠ [] →
    ∃ entry, .str entry ∈ types ∧ '.' ∉ entry.toList

/-- The values of a field are images, or arrays of images. -/
def Field.HoldsImages (field : Field) : Prop := field.kind = .image ∨ field.innerKind? = some .image

instance (field : Field) : Decidable field.HoldsImages := inferInstanceAs (Decidable (_ ∨ _))

/-- Every extension that a field of images accepts has a point, or is no text if the field holds an array of images. -/
inductive Field.NoExtension (field : Field) : Prop
  | image {types : List String} (hkind : field.kind = .image)
      (htypes : field.constraints.get? Constraint.acceptedTypes = some (.arr (types.map .str))) (hne : types ≠ [])
      (hpoints : ∀ entry ∈ types, '.' ∈ entry.toList)
  | list {types : List Json} (hinner : field.innerKind? = some .image)
      (htypes : field.constraints.get? Constraint.acceptedTypes = some (.arr types)) (hne : types ≠ [])
      (hpoints : ∀ entry, .str entry ∈ types → '.' ∈ entry.toList)

/-! ### Values of a kind -/

namespace Kind

variable {constraints : Members} {policy : UntypedLists} {kind inner : Kind} {path : String} {value : Json}

theorem ImagePath.someExtension (hpath : ImagePath constraints path) : SomeExtension constraints := by
  obtain ⟨stem, extension, -, hextension, haccepted⟩ := hpath
  intro types htypes hne
  obtain ⟨entry, hmem, hlower⟩ := haccepted types htypes hne
  refine ⟨entry, hmem, ?_⟩
  rwa [← Text.point_mem_lowercase_iff, hlower, Text.point_mem_lowercase_iff]

theorem SomeExtension.exists_imagePath (hsome : SomeExtension constraints) :
    ∃ path, path ≠ "" ∧ ImagePath constraints path := by
  have hnonempty : ∀ extension : String, "" ++ "." ++ extension ≠ "" := by
    intro extension hempty
    simpa using congrArg String.toList hempty
  by_cases hlisted : ∃ types, constraints.get? Constraint.acceptedTypes = some (.arr types) ∧ types ≠ []
  · obtain ⟨types, htypes, hne⟩ := hlisted
    obtain ⟨entry, hmem, hentry⟩ := hsome types htypes hne
    refine ⟨"" ++ "." ++ entry, hnonempty entry, "", entry, rfl, hentry, fun other hother _ => ⟨entry, ?_, rfl⟩⟩
    obtain rfl := Json.arr.inj (Option.some.inj (htypes.symm.trans hother))
    exact hmem
  · exact ⟨"" ++ "." ++ "", hnonempty "", "", "", rfl, by simp,
      fun types htypes hne => absurd ⟨types, htypes, hne⟩ hlisted⟩

theorem not_blank_str (hpath : path ≠ "") : ¬ Blank (some (.str path)) := by
  intro hblank
  cases hblank
  exact hpath rfl

theorem exists_accepts (hkind : kind ≠ list) (hsome : kind = image → SomeExtension constraints) :
    ∃ value : Json, value.WellFormed ∧ ¬ Blank (some value) ∧ Accepts constraints policy kind value := by
  cases kind with
  | integer => exact ⟨.int 0, .int ⟨by decide, by decide⟩, nofun, .integer 0⟩
  | str | longStr | url | email | select => exact ⟨.str "a", .str _, not_blank_str (by decide), .text (by decide) "a"⟩
  | toggle => exact ⟨.bool true, .bool true, nofun, .toggle true⟩
  | image =>
      obtain ⟨path, hne, hpath⟩ := (hsome rfl).exists_imagePath
      exact ⟨.str path, .str path, not_blank_str hne, .image hpath⟩
  | list => exact absurd rfl hkind

theorem exists_accepts_list (hitems : ItemsAre constraints inner) (hinner : inner ≠ list)
    (hsome : inner = image → SomeExtension constraints) :
    ∃ value : Json, value.WellFormed ∧ ¬ Blank (some value) ∧ Accepts constraints policy list value := by
  obtain ⟨item, hwell, -, haccepts⟩ := @exists_accepts constraints policy inner hinner hsome
  refine ⟨.arr [item], .arr (List.forall_mem_singleton.2 hwell), nofun,
    .items hitems (List.forall_mem_singleton.2 haccepts)⟩

/-- An image, and an array of images with an item, show an extension that can be had. -/
theorem Accepts.someExtension_of_image (haccepts : Accepts constraints policy .image value) : SomeExtension constraints := by
  cases haccepts with
  | text hkind => nomatch hkind
  | image hpath => exact hpath.someExtension

theorem Accepts.someExtension_of_list (hvalue : ¬ Blank (some value)) (hitems : ItemsAre constraints .image)
    (haccepts : Accepts constraints policy .list value) : SomeExtension constraints := by
  cases haccepts with
  | text hkind => nomatch hkind
  | @items inner items hinner haccepted =>
      obtain rfl := hitems.unique hinner
      cases items with
      | nil => exact absurd .array hvalue
      | cons item rest => exact (haccepted item List.mem_cons_self).someExtension_of_image
  | untyped _ huntyped => exact absurd huntyped hitems.not_untyped

end Kind

/-! ### Values of a field -/

namespace Field

variable {field : Field} {policy : UntypedLists} {value : Option Json} {inner : Kind}

theorem innerKind?_eq_some_iff :
    field.innerKind? = some inner ↔ field.kind = .list ∧ Kind.ItemsAre field.constraints inner := by
  rw [innerKind?]
  split
  · rename_i hlist
    rw [Option.bind_eq_some_iff, and_iff_right hlist]
    exact exists_congr fun name => and_congr Kind.bind_asString?_eq_some_iff Kind.ofName?_eq_some_iff
  · rename_i hother
    constructor
    · intro hnone
      cases hnone
    · exact fun hlist => absurd hlist.1 hother

theorem Passes.someExtension (hpasses : field.Passes policy value) (hrequired : field.required = true)
    (himages : field.HoldsImages) : Kind.SomeExtension field.constraints := by
  have hvalue := hpasses.present hrequired
  obtain ⟨own, rfl⟩ : ∃ own, value = some own :=
    Option.ne_none_iff_exists'.1 fun hnone => hvalue (hnone ▸ .absent)
  have haccepts := hpasses.accepted own rfl hvalue
  rcases himages with himage | hinner
  · rw [himage] at haccepts
    exact haccepts.someExtension_of_image
  · obtain ⟨hlist, hitems⟩ := innerKind?_eq_some_iff.1 hinner
    rw [hlist] at haccepts
    exact haccepts.someExtension_of_list hvalue hitems

/-- A field whose images can be had has a value that passes, which is `null` if none is required. -/
theorem exists_passes (hlists : field.kind = .list → ∃ inner, field.innerKind? = some inner ∧ inner ≠ .list)
    (hsome : field.required = true → field.HoldsImages → Kind.SomeExtension field.constraints) :
    ∃ value : Json, value.WellFormed ∧ field.Passes policy (some value) := by
  by_cases hrequired : field.required = true
  · obtain ⟨value, hwell, hvalue, haccepts⟩ : ∃ value : Json, value.WellFormed ∧ ¬ Blank (some value) ∧
        field.kind.Accepts field.constraints policy value := by
      by_cases hlist : field.kind = .list
      · obtain ⟨inner, hinner, hne⟩ := hlists hlist
        rw [hlist]
        refine Kind.exists_accepts_list (innerKind?_eq_some_iff.1 hinner).2 hne fun himage => ?_
        exact hsome hrequired (.inr (himage ▸ hinner))
      · exact Kind.exists_accepts hlist fun himage => hsome hrequired (.inl himage)
    refine ⟨value, hwell, fun _ => hvalue, fun own hown _ => ?_⟩
    exact Option.some.inj hown ▸ haccepts
  · exact ⟨.null, .null, fun h => absurd h hrequired, fun _ _ hvalue => absurd .null hvalue⟩

end Field

/-! ### Records -/

theorem Schema.exists_check_eq_ok {schema : Schema} {skip : List String} (hnodup : (schema.fields.map Field.name).Nodup)
    (hvalues : ∀ field ∈ schema.fields, field.name ∉ skip →
      ∃ value : Json, value.WellFormed ∧ field.Passes schema.policy (some value)) :
    ∃ record, (Json.obj record).WellFormed ∧ schema.check record skip = .ok () := by
  have hvalue : ∀ field : Field, ∃ value : Json, value.WellFormed ∧
      (field ∈ schema.fields → field.name ∉ skip → field.Passes schema.policy (some value)) := by
    intro field
    by_cases hasked : field ∈ schema.fields ∧ field.name ∉ skip
    · obtain ⟨value, hwell, hpasses⟩ := hvalues field hasked.1 hasked.2
      exact ⟨value, hwell, fun _ _ => hpasses⟩
    · exact ⟨.null, .null, fun hmem hname => absurd ⟨hmem, hname⟩ hasked⟩
  choose valueOf hwell hpasses using hvalue
  have hkeys : (Assoc.keys (schema.fields.map fun field => (field.name, valueOf field))).Nodup := by
    rw [Assoc.keys, List.map_map]
    exact hnodup
  refine ⟨schema.fields.map fun field => (field.name, valueOf field), .obj hkeys ?_, ?_⟩
  · exact List.forall_mem_map.2 fun field _ => hwell field
  · refine check_eq_ok_iff.2 fun field hmem hname => ?_
    have hmember : (field.name, valueOf field) ∈ schema.fields.map fun field => (field.name, valueOf field) :=
      List.mem_map_of_mem hmem
    rw [(Assoc.get?_eq_some_iff_mem hkeys).2 hmember]
    exact hpasses field hmem hname

namespace Document

variable {entry : Entry} {field : Field} {document : Json}

theorem Entry.Reads.imageConstraints (hreads : entry.Reads field) (hsound : entry.Sound) (himage : field.kind = .image) :
    field.constraints = [] ∨ ImageConstraints field.constraints := by
  have hread := hreads.constraints
  cases hparam : param? entry.params Parameter.constraints with
  | none =>
      rw [hparam] at hread
      exact .inl (Json.obj.inj hread)
  | some value =>
      rw [hparam, Option.getD_some] at hread
      have hfits := hreads.fits hsound
      rw [himage] at hfits
      exact .inr (hfits _ (has_iff.2 (hparam.trans (congrArg some hread.symm))))

/-- The constraints of an image are those of a valid document, so what they accept is an array of texts. -/
theorem Entry.Reads.noExtension_iff (hreads : entry.Reads field) (hsound : entry.Sound) :
    field.NoExtension ↔ field.HoldsImages ∧ ¬ Kind.SomeExtension field.constraints := by
  constructor
  · intro hnone
    cases hnone with
    | image hkind htypes hne hpoints =>
        refine ⟨.inl hkind, fun hsome => ?_⟩
        obtain ⟨entry, hmem, hentry⟩ := hsome _ htypes (mt List.map_eq_nil_iff.1 hne)
        obtain ⟨other, hother, heq⟩ := List.mem_map.1 hmem
        exact hentry (Json.str.inj heq ▸ hpoints other hother)
    | list hinner htypes hne hpoints =>
        refine ⟨.inr hinner, fun hsome => ?_⟩
        obtain ⟨entry, hmem, hentry⟩ := hsome _ htypes hne
        exact hentry (hpoints entry hmem)
  · rintro ⟨himages, hnone⟩
    obtain ⟨types, htypes, hne, hpoints⟩ : ∃ types, field.constraints.get? Constraint.acceptedTypes = some (.arr types) ∧
        types ≠ [] ∧ ∀ entry, .str entry ∈ types → '.' ∈ entry.toList := by
      simpa [Kind.SomeExtension] using hnone
    rcases himages with himage | hinner
    · rcases hreads.imageConstraints hsound himage with hempty | ⟨texts, -, htexts⟩
      · rw [hempty] at htypes
        cases htypes
      · obtain rfl := Json.arr.inj (Option.some.inj (htypes.symm.trans htexts.1))
        refine .image himage htypes (mt List.map_eq_nil_iff.2 hne) fun entry hmem => ?_
        exact hpoints entry (List.mem_map_of_mem hmem)
    · exact .list hinner htypes hne hpoints

/-- A record fits the schema of a valid document exactly if each required image can have one of its extensions. -/
theorem some_record_fits_iff (hvalid : validate document = .ok ()) (hwell : document.WellFormed) (policy : UntypedLists)
    (skip : List String) :
    ∃ schema, Schema.ofDocument document = .ok schema ∧
      ((∃ record, (Json.obj record).WellFormed ∧ { schema with policy }.check record skip = .ok ()) ↔
        ∀ field ∈ schema.fields, field.name ∉ skip → field.required = true → field.HoldsImages →
          Kind.SomeExtension field.constraints) ∧
      ((∀ record, { schema with policy }.check record skip ≠ .ok ()) ↔
        ∃ field ∈ schema.fields, field.name ∉ skip ∧ field.required = true ∧ field.NoExtension) := by
  obtain ⟨members, schema, hmembers, hloads, -, hstructured, hnodup⟩ := (structured_of_validate document).2 hvalid
  obtain ⟨all, loaded, hdescribes⟩ := exists_describes hvalid
  obtain rfl := Except.ok.inj (hloads.symm.trans hdescribes.loads)
  have hneeds : ∀ record, { schema with policy }.check record skip = .ok () →
      ∀ field ∈ schema.fields, field.name ∉ skip → field.required = true → field.HoldsImages →
        Kind.SomeExtension field.constraints := by
    intro record hfits field hmem hname hrequired himages
    exact (Schema.check_eq_ok_iff.1 hfits field hmem hname).someExtension hrequired himages
  have hsuffices : (∀ field ∈ schema.fields, field.name ∉ skip → field.required = true → field.HoldsImages →
        Kind.SomeExtension field.constraints) →
      ∃ record, (Json.obj record).WellFormed ∧ { schema with policy }.check record skip = .ok () := by
    intro hsome
    refine @Schema.exists_check_eq_ok { schema with policy } skip (hnodup hwell) fun field hmem hname => ?_
    exact Field.exists_passes (hstructured.lists field hmem) (hsome field hmem hname)
  have hnoExtension : ∀ field ∈ schema.fields,
      (field.NoExtension ↔ field.HoldsImages ∧ ¬ Kind.SomeExtension field.constraints) := by
    intro field hmem
    obtain ⟨entry, hentry, hreads⟩ := hdescribes.exists_entry hmem
    exact hreads.noExtension_iff (hdescribes.sound.fields entry hentry)
  refine ⟨schema, hloads, ⟨fun ⟨record, _, hfits⟩ => hneeds record hfits, hsuffices⟩, ?_, ?_⟩
  · intro hunfit
    have hnot := mt hsuffices fun ⟨record, _, hfits⟩ => hunfit record hfits
    push Not at hnot
    obtain ⟨field, hmem, hname, hrequired, himages, hsome⟩ := hnot
    exact ⟨field, hmem, hname, hrequired, (hnoExtension field hmem).2 ⟨himages, hsome⟩⟩
  · rintro ⟨field, hmem, hname, hrequired, hnone⟩ record hfits
    obtain ⟨himages, hsome⟩ := (hnoExtension field hmem).1 hnone
    exact hsome (hneeds record hfits field hmem hname hrequired himages)

/-- A document that requires an image whose only extension begins with a point. -/
def posterDocument : Json :=
  .obj [
    ("id", .obj [("type", .str "integer"), ("primary_key", .bool true), ("required", .bool true)]),
    ("poster", .obj [("type", .str "image"), ("required", .bool true),
      ("additional_type_parameters", .obj [("accepted_types", .arr [.str ".png"])])])]

theorem wellFormed_posterDocument : posterDocument.WellFormed := by
  refine .obj (by decide)
    (List.forall_mem_cons.2 ⟨.obj (by decide) ?_, List.forall_mem_singleton.2 (.obj (by decide) ?_)⟩)
  · simp only [List.forall_mem_cons]
    exact ⟨.str _, .bool _, .bool _, nofun⟩
  · simp only [List.forall_mem_cons]
    exact ⟨.str _, .bool _,
      .obj (by decide) (List.forall_mem_singleton.2 (.arr (List.forall_mem_singleton.2 (.str _)))), nofun⟩

theorem some_record_fits_iff_poster :
    validate posterDocument = .ok () ∧ posterDocument.WellFormed ∧
    ∃ schema, Schema.ofDocument posterDocument = .ok schema ∧
      (∀ record, { schema with policy := .accept }.check record [] ≠ .ok ()) ∧
      ∃ record, { schema with policy := .reject }.check record ["poster"] = .ok () := by
  have hvalid : validate posterDocument = .ok () := rfl
  obtain ⟨schema, hloads, -, hunfit⟩ := some_record_fits_iff hvalid wellFormed_posterDocument .accept []
  obtain ⟨own, hown, hfits, -⟩ := some_record_fits_iff hvalid wellFormed_posterDocument .reject ["poster"]
  obtain rfl := Except.ok.inj (hloads.symm.trans hown)
  obtain rfl := Except.ok.inj hloads
  refine ⟨hvalid, wellFormed_posterDocument, _, rfl, hunfit.2 ?_, ?_⟩
  · refine ⟨_, List.mem_cons_of_mem _ List.mem_cons_self, by decide, rfl, ?_⟩
    exact @Field.NoExtension.image _ [".png"] rfl rfl (by decide) (by decide)
  · obtain ⟨record, -, hrecord⟩ := hfits.2 <| List.forall_mem_cons.2 ⟨fun _ _ himages => absurd himages (by decide),
      List.forall_mem_singleton.2 fun hname => absurd List.mem_cons_self hname⟩
    exact ⟨record, hrecord⟩

end Document

end AddressBook
