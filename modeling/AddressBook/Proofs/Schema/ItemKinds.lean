import AddressBook.Proofs.Schema.Satisfying
/-!
# Item kinds that validation has seen to

The checks of a list have answers ready for constraints that name no kind for the items, name one that is not registered, or
name lists again. Validation admits no such constraints, so the checks of its schemas never give these answers: they would be
the same checks with any others. A list is refused as a list only if it is no array. An array is refused for an item of it,
and as what the item should have been.
-/

namespace AddressBook

namespace Kind

/-- What is answered to an array where the constraints name no kind for its items that is smaller than a list. -/
structure Fallbacks where
  /-- No text names a kind. -/
  untyped : Except KindMismatch Unit
  /-- The kind is not registered. -/
  unknown : Except KindMismatch Unit
  /-- The items are to be lists themselves. -/
  nested : List Json → Except KindMismatch Unit

/-- Checks a value that is not to be made of other values. -/
def checkLeaf (constraints : Members) (kind : Kind) (value : Json) : Except KindMismatch Unit :=
  if kind.admits constraints value then .ok () else .error ⟨kind⟩

/-- Checks a value that is not empty against a kind, with fallbacks that are left open. -/
def checkWith (fallbacks : Fallbacks) (constraints : Members) (kind : Kind) : Json → Except KindMismatch Unit
  | .arr items =>
      if kind = list then
        match itemRule constraints with
        | .untyped => fallbacks.untyped
        | .unknown => fallbacks.unknown
        | .each inner =>
            if inner = list then fallbacks.nested items else forM items (checkLeaf constraints inner)
      else checkLeaf constraints kind (.arr items)
  | value => checkLeaf constraints kind value

/-- The fallbacks of the checks. A list of lists is checked as its constraints say, all the way down. -/
def Fallbacks.own (constraints : Members) (policy : UntypedLists) : Fallbacks where
  untyped :=
    match policy with
    | .accept => .ok ()
    | .reject => .error ⟨list⟩
  unknown := .error ⟨list⟩
  nested := checkItems constraints policy list

variable {constraints : Members} {policy : UntypedLists} {kind inner reported : Kind} {value : Json} {items : List Json}

/-! ### The fallbacks of the checks -/

theorem check_of_ne_list (hkind : kind ≠ list) (policy : UntypedLists) (value : Json) :
    check constraints policy kind value = checkLeaf constraints kind value := by
  cases value with
  | arr items =>
      rw [check_arr, if_neg hkind, checkLeaf]
      cases kind <;> rfl
  | _ => exact check_of_not_array rfl policy kind

theorem checkWith_own (constraints : Members) (policy : UntypedLists) (kind : Kind) (value : Json) :
    checkWith (.own constraints policy) constraints kind value = check constraints policy kind value := by
  cases value with
  | arr items =>
      by_cases hlist : kind = list
      · rw [check_arr, checkWith, if_pos hlist, if_pos hlist]
        cases itemRule constraints with
        | untyped | unknown => rfl
        | each inner =>
            dsimp only
            split
            · rename_i hnested
              rw [hnested]
              rfl
            · rename_i hplain
              rw [checkItems_eq_forM, funext (check_of_ne_list hplain policy)]
      · rw [check_of_ne_list hlist, checkWith, if_neg hlist]
  | _ => exact (check_of_not_array rfl policy kind).symm

/-- Where a smaller kind is named for the items, no fallback is asked for an answer. -/
theorem checkWith_congr (hitems : kind = list → ∃ inner, inner ≠ list ∧ ItemsAre constraints inner)
    (fallbacks other : Fallbacks) (value : Json) :
    checkWith fallbacks constraints kind value = checkWith other constraints kind value := by
  cases value with
  | arr items =>
      by_cases hlist : kind = list
      · obtain ⟨inner, hinner, hnamed⟩ := hitems hlist
        simp only [checkWith, itemRule_eq_each_iff.2 hnamed, if_neg hinner]
      · rw [checkWith, checkWith, if_neg hlist, if_neg hlist]
  | _ => rfl

theorem checkWith_eq_check (hitems : kind = list → ∃ inner, inner ≠ list ∧ ItemsAre constraints inner)
    (fallbacks : Fallbacks) (policy : UntypedLists) (value : Json) :
    checkWith fallbacks constraints kind value = check constraints policy kind value :=
  (checkWith_congr hitems fallbacks (.own constraints policy) value).trans (checkWith_own constraints policy kind value)

/-! ### Reported kinds -/

theorem displayName_eq_list_iff : kind.displayName = "list" ↔ kind = list := by
  cases kind <;> decide

theorem ItemsAre.not_unknown (hitems : ItemsAre constraints inner) : ¬ ItemsUnknown constraints := by
  intro hunknown
  have hrule := (itemRule_eq_each_iff.2 hitems).symm.trans (itemRule_eq_unknown_iff.2 hunknown)
  nomatch hrule

theorem Rejects.not_accepts (hrejects : Rejects constraints policy kind value reported) :
    ¬ Accepts constraints policy kind value := by
  intro haccepts
  have hcheck := (check_eq_error_iff.2 hrejects).symm.trans (check_eq_ok_iff.2 haccepts)
  nomatch hcheck

theorem Rejects.eq_of_ne_list (hrejects : Rejects constraints policy kind value reported) (hkind : kind ≠ list) :
    reported = kind := by
  cases hrejects with
  | value => rfl
  | notArray | unknown | untyped | item => exact absurd rfl hkind

theorem rejects_arr_of_itemsAre (hitems : ItemsAre constraints inner) (hinner : inner ≠ list) :
    Rejects constraints policy list (.arr items) reported ↔
      reported = inner ∧ ∃ item ∈ items, ¬ Accepts constraints policy inner item := by
  have hreported : ∀ {shown : Kind}, Rejects constraints policy list (.arr items) shown →
      shown = inner ∧ ∃ item ∈ items, ¬ Accepts constraints policy inner item := by
    intro shown hrejects
    rcases rejects_arr_iff.1 hrejects with
      ⟨hlist, -⟩ | ⟨-, ⟨own, before, item, after, hown, rfl, -, hitem⟩ | ⟨hunusable, -⟩⟩
    · exact absurd rfl hlist
    · obtain rfl := hitems.unique hown
      obtain rfl := hitem.eq_of_ne_list hinner
      exact ⟨rfl, item, List.mem_append_right _ List.mem_cons_self, hitem.not_accepts⟩
    · rcases hunusable with hunknown | ⟨huntyped, -⟩
      · exact absurd hunknown hitems.not_unknown
      · exact absurd huntyped hitems.not_untyped
  constructor
  · exact hreported
  · rintro ⟨rfl, item, hmem, hnot⟩
    obtain ⟨-, -, haccepts | ⟨shown, hrejects⟩, -⟩ := check_accepts_or_rejects constraints policy list (.arr items)
    · obtain ⟨-, ⟨own, hown, hall⟩ | ⟨huntyped, -⟩⟩ := accepts_arr_iff.1 haccepts
      · obtain rfl := hitems.unique hown
        exact absurd (hall item hmem) hnot
      · exact absurd huntyped hitems.not_untyped
    · exact (hreported hrejects).1 ▸ hrejects

theorem rejects_as_list_iff (hitems : kind = list → ∃ inner, inner ≠ list ∧ ItemsAre constraints inner) :
    Rejects constraints policy kind value list ↔ kind = list ∧ ∀ items, value ≠ .arr items := by
  constructor
  · intro hrejects
    by_cases hlist : kind = list
    · refine ⟨hlist, fun items harray => ?_⟩
      obtain ⟨inner, hinner, hnamed⟩ := hitems hlist
      rw [hlist, harray] at hrejects
      exact hinner ((rejects_arr_of_itemsAre hnamed hinner).1 hrejects).1.symm
    · exact absurd (hrejects.eq_of_ne_list hlist).symm hlist
  · rintro ⟨rfl, hvalue⟩
    exact .notArray hvalue

end Kind

namespace Field

variable {field : Field} {policy : UntypedLists} {value : Option Json} {items : List Json} {inner : Kind} {name : String}
  {violation : Violation}

/-- If the field is a list, its constraints name a kind for the items, which is not that of lists. -/
def NamesSmallerKind (field : Field) : Prop :=
  field.kind = .list → ∃ inner, inner ≠ .list ∧ Kind.ItemsAre field.constraints inner

theorem fails_as_list_iff (hnames : field.NamesSmallerKind) : field.Fails policy value (.wrongType name .list) ↔
    name = field.name ∧ field.kind = .list ∧ ∃ own, value = some own ∧ ¬ Blank (some own) ∧ ∀ items, own ≠ .arr items := by
  constructor
  · intro hfails
    cases hfails with
    | wrongType hvalue hrejects =>
        obtain ⟨hlist, harray⟩ := (Kind.rejects_as_list_iff hnames).1 hrejects
        exact ⟨rfl, hlist, _, rfl, hvalue, harray⟩
  · rintro ⟨rfl, hlist, own, rfl, hvalue, harray⟩
    exact .wrongType hvalue ((Kind.rejects_as_list_iff hnames).2 ⟨hlist, harray⟩)

/-- An array at a list is refused for what it lacks or for an item of it. -/
theorem fails_arr_iff (hlist : field.kind = .list) (hitems : Kind.ItemsAre field.constraints inner) (hinner : inner ≠ .list) :
    field.Fails policy (some (.arr items)) violation ↔
      (items = [] ∧ field.required = true ∧ violation = .missingRequiredValue field.name) ∨
      (violation = .wrongType field.name inner ∧ ∃ item ∈ items, ¬ inner.Accepts field.constraints policy item) := by
  constructor
  · intro hfails
    cases hfails with
    | missing hrequired hblank =>
        cases hblank
        exact .inl ⟨rfl, hrequired, rfl⟩
    | wrongType _ hrejects =>
        rw [hlist] at hrejects
        obtain ⟨rfl, hitem⟩ := (Kind.rejects_arr_of_itemsAre hitems hinner).1 hrejects
        exact .inr ⟨rfl, hitem⟩
  · rintro (⟨rfl, hrequired, rfl⟩ | ⟨rfl, item, hmem, hitem⟩)
    · exact .missing hrequired .array
    · have hvalue : ¬ Blank (some (.arr items)) := by
        intro hblank
        cases hblank
        exact List.not_mem_nil hmem
      refine .wrongType hvalue ?_
      rw [hlist]
      exact (Kind.rejects_arr_of_itemsAre hitems hinner).2 ⟨rfl, item, hmem, hitem⟩

end Field

namespace Document

variable {document : Json} {all : List Entry} {schema : Schema} {field : Field}

theorem Describes.namesSmallerKind (hdescribes : Describes document all schema) (hmem : field ∈ schema.fields) :
    field.NamesSmallerKind := by
  intro hlist
  obtain ⟨inner, hinner, hne⟩ := hdescribes.structured.lists field hmem hlist
  exact ⟨inner, hne, (Field.innerKind?_eq_some_iff.1 hinner).2⟩

/-- Only what is no array is refused as a list, and the fallbacks of the checks have no influence. -/
theorem item_kind_never_refuses (hvalid : validate document = .ok ()) :
    ∃ schema, Schema.ofDocument document = .ok schema ∧
      (∀ policy record skip name expected,
        { schema with policy }.check record skip = .error (.wrongType name expected) → expected.displayName = "list" →
          ∃ field ∈ schema.fields, field.name = name ∧ name ∉ skip ∧ field.kind = .list ∧
            ∃ own, record.get? name = some own ∧ ¬ Blank (some own) ∧ ∀ items, own ≠ .arr items) ∧
      ∀ field ∈ schema.fields,
        (∀ fallbacks policy value,
          field.kind.checkWith fallbacks field.constraints value = field.kind.check field.constraints policy value) ∧
        (field.kind = .list → ∃ inner, inner ≠ .list ∧ Kind.ItemsAre field.constraints inner ∧
          ∀ policy items violation, field.check policy (some (.arr items)) = .error violation ↔
            (items = [] ∧ field.required = true ∧ violation = .missingRequiredValue field.name) ∨
            (violation = .wrongType field.name inner ∧
              ∃ item ∈ items, ¬ inner.Accepts field.constraints policy item)) := by
  obtain ⟨all, schema, hdescribes⟩ := exists_describes hvalid
  refine ⟨schema, hdescribes.loads, ?_, fun field hmem => ⟨?_, fun hlist => ?_⟩⟩
  · intro policy record skip name expected hrefused hlist
    obtain rfl := Kind.displayName_eq_list_iff.1 hlist
    obtain ⟨before, field, after, hfields, hskip, -, hfails⟩ := Schema.check_eq_error_iff.1 hrefused
    have hmem : field ∈ schema.fields := hfields ▸ List.mem_append_right before List.mem_cons_self
    obtain ⟨rfl, hkind, hvalue⟩ := (Field.fails_as_list_iff (hdescribes.namesSmallerKind hmem)).1 hfails
    exact ⟨field, hmem, rfl, hskip, hkind, hvalue⟩
  · exact Kind.checkWith_eq_check (hdescribes.namesSmallerKind hmem)
  · obtain ⟨inner, hinner, hitems⟩ := hdescribes.namesSmallerKind hmem hlist
    refine ⟨inner, hinner, hitems, fun policy items violation => ?_⟩
    exact Field.check_eq_error_iff.trans (Field.fails_arr_iff hlist hitems hinner)

/-- The list of images of the gallery. -/
def photosField : Field where
  name := "photos"
  kind := .list
  sortKey := some 0
  constraints := [(Constraint.innerType, .str "image")]

def gallerySchema : Schema where
  fields := [{ name := "id", kind := .integer, required := true, primaryKey := true, sortKey := some 1 }, photosField]

theorem item_kind_never_refuses_gallery :
    validate galleryDocument = .ok () ∧ Schema.ofDocument galleryDocument = .ok gallerySchema ∧
    { gallerySchema with policy := .accept }.check [("photos", .str "cover.png")] ["id"] =
      .error (.wrongType "photos" .list) ∧
    (∃ field ∈ gallerySchema.fields, field.name = "photos" ∧ field.kind = .list) ∧
    photosField.check .reject (some (.arr [.str "cover.png", .arr []])) = .error (.wrongType "photos" .image) := by
  have hvalid : validate galleryDocument = .ok () := rfl
  have hloads : Schema.ofDocument galleryDocument = .ok gallerySchema := rfl
  obtain ⟨schema, hown, hrefuses, hfields⟩ := item_kind_never_refuses hvalid
  obtain rfl := Except.ok.inj (hloads.symm.trans hown)
  refine ⟨hvalid, hloads, rfl, ?_, ?_⟩
  · obtain ⟨field, hmem, hname, -, hlist, -⟩ := hrefuses .accept [("photos", .str "cover.png")] ["id"] "photos" .list rfl rfl
    exact ⟨field, hmem, hname, hlist⟩
  · obtain ⟨inner, -, hitems, hchecks⟩ :=
      (hfields photosField (List.mem_cons_of_mem _ List.mem_cons_self)).2 rfl
    obtain rfl : inner = .image := hitems.unique ⟨"image", rfl, Kind.ofName?_eq_some_iff.1 rfl⟩
    refine (hchecks _ _ _).2 (.inr ⟨rfl, .arr [], List.mem_cons_of_mem _ List.mem_cons_self, fun haccepts => ?_⟩)
    nomatch haccepts

end Document

end AddressBook
