import AddressBook.Proofs.Schema.Records
import AddressBook.Store.Records
import Mathlib.Data.List.Nodup
/-!
# Contacts as they are sent

A record is checked without its id when it is stored, and sent with it. The id stands in the place of whatever the infos have
under its name, and it is a whole number, so of all kinds only whole numbers admit it. All other fields see the values that
were stored. So what is sent fits a schema exactly if what is stored does, and if the field of the id, should there be one, is
a whole number.
-/

namespace AddressBook

theorem Field.passes_int_iff {field : Field} {policy : UntypedLists} {n : Int} :
    field.Passes policy (some (.int n)) ↔ field.kind = .integer := by
  have hvalue : ¬ Blank (some (.int n)) := nofun
  constructor
  · exact fun hpasses => Kind.accepts_int_iff.1 (hpasses.accepted (.int n) rfl hvalue)
  · intro hkind
    refine ⟨fun _ => hvalue, fun own hown _ => ?_⟩
    obtain rfl := Option.some.inj hown
    exact Kind.accepts_int_iff.2 hkind

namespace Record

variable {schema : Schema}

/-- A field passes on a contact as its own place is filled: with the id, or with what is stored. -/
theorem passes_contact_iff (record : Record) (policy : UntypedLists) (field : Field) :
    field.Passes policy ((record.infos.insert idField (.int record.id)).get? field.name) ↔
      (field.name ≠ idField → field.Passes policy (record.infos.get? field.name)) ∧
        (field.name = idField → field.kind = .integer) := by
  by_cases hid : field.name = idField
  · rw [hid, Assoc.get?_insert_self, Field.passes_int_iff]
    simp
  · rw [Assoc.get?_insert_of_ne _ _ hid]
    simp [hid]

theorem check_contact_eq_ok_iff (record : Record) (schema : Schema) :
    schema.check (record.infos.insert idField (.int record.id)) [] = .ok () ↔
      schema.check record.infos [idField] = .ok () ∧ ∀ field ∈ schema.fields, field.name = idField → field.kind = .integer := by
  simp only [Schema.check_eq_ok_iff, passes_contact_iff, List.not_mem_nil, not_false_eq_true, forall_const,
    List.mem_singleton, forall_and]

/-- A contact as it is sent fits exactly if its infos do and the id has no field, or one of whole numbers. -/
theorem sent_contact_fits_iff (record : Record) (hnames : (schema.fields.map Field.name).Nodup) :
    ∃ contact, record.contact = .obj contact ∧
      (schema.check contact [] = .ok () ↔
        schema.check record.infos [idField] = .ok () ∧
          ((∀ field ∈ schema.fields, field.name ≠ idField) ∨
            ∃ field ∈ schema.fields, field.name = idField ∧ field.kind = .integer)) := by
  refine ⟨_, rfl, (check_contact_eq_ok_iff record schema).trans (and_congr_right fun _ => ?_)⟩
  constructor
  · intro hall
    by_cases hid : ∃ field ∈ schema.fields, field.name = idField
    · obtain ⟨field, hmem, hname⟩ := hid
      exact .inr ⟨field, hmem, hname, hall field hmem hname⟩
    · exact .inl fun field hmem hname => hid ⟨field, hmem, hname⟩
  · rintro (hnone | ⟨other, hmem, hname, hkind⟩) field hfield hid
    · exact absurd hid (hnone field hfield)
    · -- names are distinct, so there is no other field for the id
      obtain rfl := List.inj_on_of_nodup_map hnames hfield hmem (hid.trans hname.symm)
      exact hkind

/-- A schema whose field for the id is of a kind. -/
def numberedSchema (kind : Kind) : Schema where
  fields := [{ name := "id", kind, required := true, primaryKey := true }, { name := "name", kind := .str, required := true }]
  policy := .accept

/-- A record whose infos have an id of their own. -/
def adaRecord : Record where
  id := 7
  infos := [("id", .str "A1"), ("name", .str "Ada")]
  inserted := "2024-05-01T10:00:00Z"

theorem sent_contact_fits_iff_ada :
    ((numberedSchema .integer).fields.map Field.name).Nodup ∧ ((numberedSchema .str).fields.map Field.name).Nodup ∧
    (numberedSchema .integer).check [("id", .int 7), ("name", .str "Ada")] [] = .ok () ∧
    (numberedSchema .str).check [("id", .int 7), ("name", .str "Ada")] [] ≠ .ok () := by
  have hnames : ∀ kind, ((numberedSchema kind).fields.map Field.name).Nodup :=
    fun _ => show ["id", "name"].Nodup by decide
  refine ⟨hnames .integer, hnames .str, ?_, ?_⟩
  · obtain ⟨contact, hcontact, hfits⟩ := adaRecord.sent_contact_fits_iff (hnames .integer)
    obtain rfl := Json.obj.inj hcontact
    exact hfits.2 ⟨rfl, .inr ⟨_, List.mem_cons_self, rfl, rfl⟩⟩
  · obtain ⟨contact, hcontact, hfits⟩ := adaRecord.sent_contact_fits_iff (hnames .str)
    obtain rfl := Json.obj.inj hcontact
    intro hok
    rcases (hfits.1 hok).2 with hnone | ⟨field, hmem, hname, hkind⟩
    · exact hnone _ List.mem_cons_self rfl
    · obtain rfl | rfl := List.mem_pair.1 hmem
      · nomatch hkind
      · nomatch hname

end Record

end AddressBook
