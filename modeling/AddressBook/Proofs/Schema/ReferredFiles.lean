import AddressBook.Proofs.Schema.Satisfying
/-!
# Files that a record refers to

A record refers to the names in its images and in its lists of images. They are collected without a check: what is no text
is passed over, and so is what is no array where there should be one. But if the record fits its schema, nothing is passed
over but values that count as none, and every name is that of an image. The one exception is the empty text in the place of
an image that is not required. It counts as no value, so it fits, and it is collected all the same, as an empty name.
-/

namespace AddressBook

theorem Kind.holdsFile_iff {kind : Kind} : kind.holdsFile = true ↔ kind = .image := by
  cases kind <;> simp [Kind.holdsFile]

namespace Field

variable {field : Field}

theorem collected_of_image (hkind : field.kind = .image) (value : Option Json) :
    (value.map field.referredFiles).getD [] = (value.bind Json.asString?).toList := by
  cases value with
  | none => rfl
  | some own => exact if_pos (Kind.holdsFile_iff.2 hkind)

theorem collected_of_imageList (hkind : field.kind ≠ .image) (hinner : field.innerKind? = some .image) (value : Option Json) :
    (value.map field.referredFiles).getD [] = ((value.bind Json.asArray?).getD []).filterMap Json.asString? := by
  cases value with
  | none => rfl
  | some own =>
      change field.referredFiles own = (own.asArray?.getD []).filterMap Json.asString?
      rw [Field.referredFiles, if_neg (mt Kind.holdsFile_iff.1 hkind), hinner]
      rfl

theorem collected_of_neither (hkind : field.kind ≠ .image) (hinner : field.innerKind? ≠ some .image) (value : Option Json) :
    (value.map field.referredFiles).getD [] = [] := by
  have hnone : ¬ field.innerKind?.any Kind.holdsFile = true := by
    intro hany
    obtain ⟨inner, hsome, hholds⟩ := (Option.any_eq_true _ _).1 hany
    exact hinner (Kind.holdsFile_iff.1 hholds ▸ hsome)
  cases value with
  | none => rfl
  | some own =>
      change field.referredFiles own = []
      rw [Field.referredFiles, if_neg (mt Kind.holdsFile_iff.1 hkind), if_neg hnone]

end Field

namespace Document

variable {entry : Entry} {field : Field} {policy : UntypedLists} {value : Option Json}

/-! ### Entries for images -/

def Entry.IsImage (entry : Entry) : Prop := Has entry.params Parameter.kind (.str "image")

/-- The constraints of an entry; it has none if no object is given. -/
def Entry.constraints (entry : Entry) : Members :=
  match param? entry.params Parameter.constraints with
  | some (.obj constraints) => constraints
  | _ => []

def Entry.IsImageList (entry : Entry) : Prop :=
  Has entry.params Parameter.kind (.str "list") ∧ Has entry.constraints Constraint.innerType (.str "image")

/-- The name is one that the check of images lets pass under the constraints of an entry. -/
def Entry.TakesName (entry : Entry) (name : String) : Prop :=
  ∀ policy, Kind.check entry.constraints policy .image (.str name) = .ok ()

/-- The names that the value at an entry refers to, each of them and no other one, in order. -/
inductive Entry.Refers (entry : Entry) : Option Json → List String → Prop
  | image {name : String} (hkind : entry.IsImage) (hname : name ≠ "") (htakes : entry.TakesName name) :
      Refers entry (some (.str name)) [name]
  | emptyName (hkind : entry.IsImage) (hoptional : ¬ entry.IsRequired) : Refers entry (some (.str "")) [""]
  | noImage {value : Option Json} (hkind : entry.IsImage) (hblank : Blank value) (hvalue : value ≠ some (.str ""))
      (hoptional : ¬ entry.IsRequired) : Refers entry value []
  | images {names : List String} (hkind : entry.IsImageList) (hne : names ≠ [])
      (htake : ∀ name ∈ names, entry.TakesName name) : Refers entry (some (.arr (names.map .str))) names
  | noImages {value : Option Json} (hkind : entry.IsImageList) (hblank : Blank value) (hoptional : ¬ entry.IsRequired) :
      Refers entry value []
  | other {value : Option Json} (himage : ¬ entry.IsImage) (hlist : ¬ entry.IsImageList) : Refers entry value []

theorem Entry.Reads.constraints_eq (hreads : entry.Reads field) : field.constraints = entry.constraints := by
  have hread := hreads.constraints
  rw [Entry.constraints]
  cases hparam : param? entry.params Parameter.constraints with
  | none =>
      rw [hparam] at hread
      exact Json.obj.inj hread
  | some value =>
      rw [hparam, Option.getD_some] at hread
      subst hread
      rfl

theorem Entry.Reads.kind_eq_iff (hreads : entry.Reads field) {name : String} {kind : Kind}
    (hunique : ∀ own, Kind.Registered own kind ↔ own = name) :
    field.kind = kind ↔ Has entry.params Parameter.kind (.str name) := by
  obtain ⟨own, hown, hregistered⟩ := hreads.kind
  constructor
  · rintro rfl
    exact (hunique own).1 hregistered ▸ hown
  · intro hname
    obtain rfl := Json.str.inj (Option.some.inj (hown.1.symm.trans hname.1))
    exact Option.some.inj ((Kind.ofName?_eq_some_iff.2 hregistered).symm.trans
      (Kind.ofName?_eq_some_iff.2 ((hunique own).2 rfl)))

theorem registered_image_iff {name : String} : Kind.Registered name .image ↔ name = "image" := by
  simp [Kind.Registered, Kind.registry]

theorem registered_list_iff {name : String} : Kind.Registered name .list ↔ name = "list" := by
  simp [Kind.Registered, Kind.registry]

theorem Entry.Reads.isImage_iff (hreads : entry.Reads field) : field.kind = .image ↔ entry.IsImage :=
  hreads.kind_eq_iff fun _ => registered_image_iff

theorem Entry.Reads.isImageList_iff (hreads : entry.Reads field) : field.innerKind? = some .image ↔ entry.IsImageList := by
  rw [Field.innerKind?_eq_some_iff, Entry.IsImageList, hreads.kind_eq_iff fun _ => registered_list_iff,
    hreads.constraints_eq]
  simp [Kind.ItemsAre, registered_image_iff, Has]

/-! ### Values that pass -/

theorem takesName_iff {name : String} : entry.TakesName name ↔ Kind.ImagePath entry.constraints name := by
  simp only [Entry.TakesName, Kind.check_eq_ok_iff]
  constructor
  · intro haccepts
    cases haccepts .reject with
    | text hkind => nomatch hkind
    | image hpath => exact hpath
  · exact fun hpath _ => .image hpath

theorem Entry.Reads.not_required (hreads : entry.Reads field) (hpasses : field.Passes policy value) (hblank : Blank value) :
    ¬ entry.IsRequired :=
  fun hrequired => hpasses.present (hreads.required_iff.2 hrequired) hblank

theorem Entry.Reads.accepts_of_not_blank (hreads : entry.Reads field) (hpasses : field.Passes policy value)
    (hblank : ¬ Blank value) : ∃ own, value = some own ∧ field.kind.Accepts entry.constraints policy own := by
  obtain ⟨own, rfl⟩ : ∃ own, value = some own := Option.ne_none_iff_exists'.1 fun hnone => hblank (hnone ▸ .absent)
  exact ⟨own, rfl, hreads.constraints_eq ▸ hpasses.accepted own rfl hblank⟩

theorem Entry.Reads.refers_image (hreads : entry.Reads field) (himage : entry.IsImage) (hpasses : field.Passes policy value) :
    entry.Refers value (value.bind Json.asString?).toList := by
  by_cases hblank : Blank value
  · have hoptional := hreads.not_required hpasses hblank
    cases hblank with
    | text => exact .emptyName himage hoptional
    | absent => exact .noImage himage .absent nofun hoptional
    | null => exact .noImage himage .null nofun hoptional
    | array => exact .noImage himage .array nofun hoptional
    | object => exact .noImage himage .object nofun hoptional
  · obtain ⟨own, rfl, haccepts⟩ := hreads.accepts_of_not_blank hpasses hblank
    rw [hreads.isImage_iff.2 himage] at haccepts
    cases haccepts with
    | text hkind => nomatch hkind
    | @image name hpath =>
        refine .image himage ?_ (takesName_iff.2 hpath)
        rintro rfl
        exact hblank .text

theorem exists_names {items : List Json} (hall : ∀ item ∈ items, Kind.image.Accepts entry.constraints policy item) :
    ∃ names : List String, items = names.map Json.str ∧ ∀ name ∈ names, entry.TakesName name := by
  induction items with
  | nil => exact ⟨[], rfl, nofun⟩
  | cons item rest ih =>
      obtain ⟨hitem, hrest⟩ := List.forall_mem_cons.1 hall
      obtain ⟨names, rfl, htake⟩ := ih hrest
      cases hitem with
      | text hkind => nomatch hkind
      | @image name hpath => exact ⟨name :: names, rfl, List.forall_mem_cons.2 ⟨takesName_iff.2 hpath, htake⟩⟩

theorem Entry.Reads.refers_list (hreads : entry.Reads field) (hlist : entry.IsImageList) (hpasses : field.Passes policy value) :
    entry.Refers value (((value.bind Json.asArray?).getD []).filterMap Json.asString?) := by
  by_cases hblank : Blank value
  · have hoptional := hreads.not_required hpasses hblank
    cases hblank <;> exact .noImages hlist (by constructor) hoptional
  · obtain ⟨own, rfl, haccepts⟩ := hreads.accepts_of_not_blank hpasses hblank
    obtain ⟨hkind, hitems⟩ := Field.innerKind?_eq_some_iff.1 (hreads.isImageList_iff.2 hlist)
    rw [hreads.constraints_eq] at hitems
    rw [hkind] at haccepts
    cases haccepts with
    | text hkind => nomatch hkind
    | untyped _ huntyped => exact absurd huntyped hitems.not_untyped
    | @items inner items hinner hall =>
        obtain rfl := hitems.unique hinner
        obtain ⟨names, rfl, htake⟩ := exists_names hall
        have hcollected : (names.map Json.str).filterMap Json.asString? = names := by
          rw [List.filterMap_map]
          exact List.filterMap_some
        change entry.Refers (some (.arr (names.map .str))) ((names.map Json.str).filterMap Json.asString?)
        rw [hcollected]
        refine .images hlist ?_ htake
        rintro rfl
        exact hblank .array

/-- A value that passes refers to the names that are collected of it. -/
theorem Entry.Reads.refers (hreads : entry.Reads field) (hpasses : field.Passes policy value) :
    entry.Refers value ((value.map field.referredFiles).getD []) := by
  by_cases himage : entry.IsImage
  · rw [Field.collected_of_image (hreads.isImage_iff.2 himage)]
    exact hreads.refers_image himage hpasses
  have hkind : field.kind ≠ .image := mt hreads.isImage_iff.1 himage
  by_cases hlist : entry.IsImageList
  · rw [Field.collected_of_imageList hkind (hreads.isImageList_iff.2 hlist)]
    exact hreads.refers_list hlist hpasses
  · rw [Field.collected_of_neither hkind (mt hreads.isImageList_iff.1 hlist)]
    exact .other himage hlist

/-- A record that fits refers to its images and the items of its lists of images, in order, and nothing else. -/
theorem files_referred_exactly (document : Json) (hvalid : validate document = .ok ()) :
    ∃ all schema, document = .obj (all.map Entry.member) ∧ Schema.ofDocument document = .ok schema ∧
      ∀ policy record skip, { schema with policy }.check record skip = .ok () →
        ∃ names : List (List String), { schema with policy }.referredFiles record = names.flatten ∧
          List.Forall₂ (fun entry own => entry.name ∉ skip → entry.Refers (record.get? entry.name) own) all names := by
  obtain ⟨all, schema, hdescribes⟩ := exists_describes hvalid
  refine ⟨all, schema, hdescribes.members, hdescribes.loads, fun policy record skip hfits => ?_⟩
  have hpasses := Schema.check_eq_ok_iff.1 hfits
  obtain ⟨pairs, rfl, hfields, hreads⟩ := hdescribes.exists_pairs
  refine ⟨pairs.map fun pair => ((record.get? pair.2.name).map pair.2.referredFiles).getD [], ?_, ?_⟩
  · rw [Schema.referredFiles, ← hfields, List.flatMap_def, List.map_map]
    rfl
  · rw [List.forall₂_map_left_iff, List.forall₂_map_right_iff, List.forall₂_same]
    intro pair hmem hname
    have hread := hreads pair hmem
    rw [← hread.name] at hname ⊢
    exact hread.refers (hpasses pair.2 (hfields ▸ List.mem_map_of_mem hmem) hname)

/-- A document with an image and a list of images, neither of which is required. -/
def albumDocument : Json :=
  .obj [
    ("id", .obj [("type", .str "integer"), ("primary_key", .bool true), ("required", .bool true)]),
    ("photo", .obj [("type", .str "image")]),
    ("gallery", .obj [("type", .str "list"), ("additional_type_parameters", .obj [("inner_type", .str "image")])])]

def albumRecord : Members := [("gallery", .arr [.str "b.png", .str "c.jpg"]), ("photo", .str "")]

theorem files_referred_exactly_album :
    validate albumDocument = .ok () ∧ ∃ all names, albumDocument = .obj (all.map Entry.member) ∧
      ["", "b.png", "c.jpg"] = List.flatten names ∧
      List.Forall₂ (fun entry own => entry.name ∉ ["id"] → entry.Refers (albumRecord.get? entry.name) own) all names := by
  have hvalid : validate albumDocument = .ok () := rfl
  obtain ⟨all, schema, hmembers, hloads, hrefers⟩ := files_referred_exactly albumDocument hvalid
  obtain rfl := Except.ok.inj hloads
  obtain ⟨names, hfiles, hnames⟩ := hrefers .reject albumRecord ["id"] rfl
  exact ⟨hvalid, all, names, hmembers, hfiles, hnames⟩

end Document

end AddressBook
