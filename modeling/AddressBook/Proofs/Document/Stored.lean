import AddressBook.Proofs.Json.Shape
import AddressBook.Proofs.Schema.Loading
/-!
# Documents as they are stored

No rule looks at a double: whole numbers, texts, truth values and objects are all that a document is judged by. So a
valid document stays valid when other doubles take the places of its own, as may happen when it is stored and read back.
A valid document also describes a schema, since the loader asks for less than validation does.
-/

namespace AddressBook.Document

open Json (withFloatsInMembers)
open Number (Binary64)

variable {f : Binary64 → Binary64} {params : Members} {key : String}

/-! ### Parameters -/

theorem has_withFloats {value : Json} :
    Has (withFloatsInMembers f params) key value ↔ ∃ own, Has params key own ∧ own.withFloats f = value := by
  have hnull : ∀ own : Json, own.withFloats f = .null ↔ own = .null := by
    intro own
    cases own <;> simp [Json.withFloats]
  rw [Has, Json.get?_withFloatsInMembers, Option.map_eq_some_iff]
  constructor
  · rintro ⟨⟨own, hget, rfl⟩, hvalue⟩
    exact ⟨own, ⟨hget, fun heq => hvalue ((hnull own).2 heq)⟩, rfl⟩
  · rintro ⟨own, ⟨hget, hown⟩, rfl⟩
    exact ⟨⟨own, hget, rfl⟩, fun heq => hown ((hnull own).1 heq)⟩

/-- A parameter that only one value becomes is a parameter before. -/
theorem has_withFloats_iff {value : Json} (hleaf : ∀ own : Json, own.withFloats f = value ↔ own = value) :
    Has (withFloatsInMembers f params) key value ↔ Has params key value := by
  rw [has_withFloats]
  constructor
  · rintro ⟨own, hown, heq⟩
    exact (hleaf own).1 heq ▸ hown
  · exact fun hvalue => ⟨value, hvalue, (hleaf value).2 rfl⟩

theorem has_str_withFloats {s : String} : Has (withFloatsInMembers f params) key (.str s) ↔ Has params key (.str s) :=
  has_withFloats_iff fun own => by cases own <;> simp [Json.withFloats]

theorem has_bool_withFloats {b : Bool} : Has (withFloatsInMembers f params) key (.bool b) ↔ Has params key (.bool b) :=
  has_withFloats_iff fun own => by cases own <;> simp [Json.withFloats]

theorem has_int_withFloats {n : Int} : Has (withFloatsInMembers f params) key (.int n) ↔ Has params key (.int n) :=
  has_withFloats_iff fun own => by cases own <;> simp [Json.withFloats]

theorem has_obj_withFloats {members : Members} (hmembers : Has (withFloatsInMembers f params) key (.obj members)) :
    ∃ own, Has params key (.obj own) ∧ members = withFloatsInMembers f own := by
  obtain ⟨own, hown, heq⟩ := has_withFloats.1 hmembers
  cases own with
  | obj own => exact ⟨own, hown, (Json.obj.inj heq).symm⟩
  | _ => simp [Json.withFloats] at heq

theorem has_strs_withFloats {values : List String} (hvalues : Has params key (.arr (values.map .str))) :
    Has (withFloatsInMembers f params) key (.arr (values.map .str)) := by
  refine has_withFloats.2 ⟨_, hvalues, ?_⟩
  rw [Json.withFloats_arr, List.map_map]
  rfl

theorem holds_withFloats {type : ParameterType} {value : Json} (hholds : type.Holds value) :
    type.Holds (value.withFloats f) := by
  cases hholds with
  | string s => exact .string s
  | boolean b => exact .boolean b
  | integer n => exact .integer n
  | object members => exact .object _

/-! ### Constraints -/

theorem listConstraints_withFloats (hlist : ListConstraints params) : ListConstraints (withFloatsInMembers f params) := by
  obtain ⟨name, kind, hname, hkind⟩ := hlist
  exact ⟨name, kind, has_str_withFloats.2 hname, hkind⟩

theorem selectConstraints_withFloats (hselect : SelectConstraints params) :
    SelectConstraints (withFloatsInMembers f params) := by
  obtain ⟨values, hvalues⟩ := hselect
  exact ⟨values, has_strs_withFloats hvalues⟩

theorem imageConstraints_withFloats (himage : ImageConstraints params) :
    ImageConstraints (withFloatsInMembers f params) := by
  obtain ⟨types, hne, htypes⟩ := himage
  exact ⟨types, hne, has_strs_withFloats htypes⟩

theorem toggleConstraints_withFloats (htoggle : ToggleConstraints params) :
    ToggleConstraints (withFloatsInMembers f params) := by
  have htext : ∀ key, (∀ value, Has params key value → ∃ s, value = .str s) →
      ∀ value, Has (withFloatsInMembers f params) key value → ∃ s, value = .str s := by
    intro key hown value hvalue
    obtain ⟨own, hhas, rfl⟩ := has_withFloats.1 hvalue
    obtain ⟨s, rfl⟩ := hown own hhas
    exact ⟨s, rfl⟩
  refine ⟨?_, htext _ htoggle.valueTrue, htext _ htoggle.valueFalse, ?_⟩
  · obtain ⟨value, hvalue⟩ := htoggle.defined
    exact ⟨value.withFloats f, hvalue.imp (fun hon => has_withFloats.2 ⟨value, hon, rfl⟩)
      fun hoff => has_withFloats.2 ⟨value, hoff, rfl⟩⟩
  · rw [has_str_withFloats, has_str_withFloats]
    exact htoggle.empty

/-! ### Fields -/

namespace Entry

/-- The entry with other doubles in the places of its own. -/
def withFloats (f : Binary64 → Binary64) (entry : Entry) : Entry :=
  { entry with params := withFloatsInMembers f entry.params }

variable {entry other : Entry}

theorem typed_withFloats {type : ParameterType} (htyped : entry.Typed key type) :
    (entry.withFloats f).Typed key type := by
  intro value hvalue
  obtain ⟨own, hown, rfl⟩ := has_withFloats.1 hvalue
  exact holds_withFloats (htyped own hown)

theorem needs_withFloats {demand : Members → Prop} (hneeds : entry.Needs demand)
    (hdemand : ∀ constraints, demand constraints → demand (withFloatsInMembers f constraints)) :
    (entry.withFloats f).Needs demand := by
  obtain ⟨constraints, hconstraints, hfits⟩ := hneeds
  exact ⟨_, has_withFloats.2 ⟨_, hconstraints, rfl⟩, hdemand constraints hfits⟩

theorem allows_withFloats {demand : Members → Prop} (hallows : entry.Allows demand)
    (hdemand : ∀ constraints, demand constraints → demand (withFloatsInMembers f constraints)) :
    (entry.withFloats f).Allows demand := by
  intro constraints hconstraints
  obtain ⟨own, hown, rfl⟩ := has_obj_withFloats hconstraints
  exact hdemand own (hallows own hown)

theorem fits_withFloats {kind : Kind} (hfits : entry.Fits kind) : (entry.withFloats f).Fits kind := by
  cases kind with
  | list => exact needs_withFloats hfits fun _ => listConstraints_withFloats
  | select => exact needs_withFloats hfits fun _ => selectConstraints_withFloats
  | image => exact allows_withFloats hfits fun _ => imageConstraints_withFloats
  | toggle => exact allows_withFloats hfits fun _ => toggleConstraints_withFloats
  | integer | str | longStr | url | email => trivial

theorem sound_withFloats (hsound : entry.Sound) : (entry.withFloats f).Sound where
  kind := by
    obtain ⟨name, kind, hname, hregistered, hfits⟩ := hsound.kind
    exact ⟨name, kind, has_str_withFloats.2 hname, hregistered, fits_withFloats hfits⟩
  displayName := typed_withFloats hsound.displayName
  formHelpText := typed_withFloats hsound.formHelpText
  required := typed_withFloats hsound.required
  primaryKey := typed_withFloats hsound.primaryKey
  mainAttribute := typed_withFloats hsound.mainAttribute
  sortKey := typed_withFloats hsound.sortKey
  constraints := typed_withFloats hsound.constraints

theorem differAt_withFloats (hdiffer : DifferAt key entry other) :
    DifferAt key (entry.withFloats f) (other.withFloats f) := by
  intro m n hm hn
  exact hdiffer m n (has_int_withFloats.1 hm) (has_int_withFloats.1 hn)

end Entry

/-! ### Documents -/

theorem hasPrimaryKey_withFloats {entries : List Entry} (hkey : HasPrimaryKey entries) :
    HasPrimaryKey (entries.map (Entry.withFloats f)) := by
  obtain ⟨before, key, after, rfl, hprimary, hrequired, hothers⟩ := hkey
  refine ⟨before.map (Entry.withFloats f), key.withFloats f, after.map (Entry.withFloats f), ?_,
    has_bool_withFloats.2 hprimary, has_bool_withFloats.2 hrequired, ?_⟩
  · rw [List.map_append, List.map_cons]
  · rw [← List.map_append, List.forall_mem_map]
    exact fun other hmem hmarked => hothers other hmem (has_bool_withFloats.1 hmarked)

theorem soundEntries_withFloats {entries : List Entry} (hsound : SoundEntries entries) :
    SoundEntries (entries.map (Entry.withFloats f)) where
  named := List.forall_mem_map.2 hsound.named
  primaryKey := hasPrimaryKey_withFloats hsound.primaryKey
  fields := List.forall_mem_map.2 fun entry hmem => Entry.sound_withFloats (hsound.fields entry hmem)
  sortKeys := List.pairwise_map.2 (hsound.sortKeys.imp Entry.differAt_withFloats)
  mainAttributes := List.pairwise_map.2 (hsound.mainAttributes.imp Entry.differAt_withFloats)

/-- A valid document stays valid with other doubles. -/
theorem validate_withFloats {document : Json} (hvalid : validate document = .ok ()) :
    validate (document.withFloats f) = .ok () := by
  obtain ⟨all, hentries⟩ := exists_entries_of_validate hvalid
  have hsound := soundEntries_withFloats (f := f) ((validate_eq_ok_iff_of_entries hentries).1 hvalid)
  have hread : entries (document.withFloats f) = .ok (all.map (Entry.withFloats f)) := by
    refine entries_eq_ok_iff.2 ⟨?_, hsound.named⟩
    rw [(entries_eq_ok_iff.1 hentries).1, Json.withFloats_obj, List.map_map, List.map_map]
    rfl
  exact (validate_eq_ok_iff_of_entries hread).2 hsound

/-! ### Schemas -/

/-- A document that a schema can be loaded from: the empty one, or a valid one. -/
def Usable (document : Json) : Prop := document = .obj [] ∨ validate document = .ok ()

theorem exists_ofDocument {document : Json} (husable : Usable document) :
    ∃ schema, Schema.ofDocument document = .ok schema := by
  rcases husable with rfl | hvalid
  · exact ⟨_, rfl⟩
  · obtain ⟨all, schema, hdescribes⟩ := exists_describes hvalid
    exact ⟨schema, hdescribes.loads⟩

end AddressBook.Document
