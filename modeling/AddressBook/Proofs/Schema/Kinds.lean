import AddressBook.Proofs.Schema.Checking
import AddressBook.Proofs.Text.Split
/-!
# Which values are of a kind

What a kind admits and what it rejects, said value by value without the checks: whole numbers, texts, truth values, paths
of images, and arrays whose items are of the kind that the constraints name. The constraints stay the same all the way
down, so a list whose items are lists again admits nothing but arrays of arrays. A value that is rejected is rejected as a
value of some kind: its own one, unless it is an array, whose first item that is rejected decides.

The checks decide this. A value is either admitted or rejected, and never both, because it is checked once.
-/

namespace AddressBook.Kind

open Document (isString_iff)

/-! ### What constraints say -/

/-- Texts without further demands, which differ in the way they are displayed. -/
def texts : List Kind := [str, longStr, url, email, select]

/-- Every item of a list is of the kind. -/
def ItemsAre (constraints : Members) (inner : Kind) : Prop :=
  ∃ name, constraints.get? Constraint.innerType = some (.str name) ∧ Registered name inner

/-- The items of a list are of a kind that is not registered. -/
def ItemsUnknown (constraints : Members) : Prop :=
  ∃ name, constraints.get? Constraint.innerType = some (.str name) ∧ ∀ inner, ¬ Registered name inner

/-- No text says of which kind the items of a list are. -/
def ItemsUntyped (constraints : Members) : Prop :=
  ∀ name, constraints.get? Constraint.innerType ≠ some (.str name)

/-- If there is an array of extensions that is not empty, the extension is one of its texts, letter case apart. -/
def ExtensionAccepted (constraints : Members) (extension : String) : Prop :=
  ∀ types, constraints.get? Constraint.acceptedTypes = some (.arr types) → types ≠ [] →
    ∃ entry, .str entry ∈ types ∧ Text.lowercase entry = Text.lowercase extension

/-- A path has a point, and what stands after its last point is an accepted extension. -/
def ImagePath (constraints : Members) (path : String) : Prop :=
  ∃ stem extension, path = stem ++ "." ++ extension ∧ '.' ∉ extension.toList ∧ ExtensionAccepted constraints extension

/-! ### Admitted and rejected values -/

/-- A value is of a kind. -/
inductive Accepts (constraints : Members) (policy : UntypedLists) : Kind → Json → Prop
  | integer (n : Int) : Accepts constraints policy integer (.int n)
  | text {kind : Kind} (hkind : kind ∈ texts) (s : String) : Accepts constraints policy kind (.str s)
  | toggle (b : Bool) : Accepts constraints policy toggle (.bool b)
  | image {path : String} (hpath : ImagePath constraints path) : Accepts constraints policy image (.str path)
  | items {inner : Kind} {items : List Json} (hinner : ItemsAre constraints inner)
      (hitems : ∀ item ∈ items, Accepts constraints policy inner item) : Accepts constraints policy list (.arr items)
  | untyped (items : List Json) (huntyped : ItemsUntyped constraints) (hpolicy : policy = .accept) :
      Accepts constraints policy list (.arr items)

/-- A value is not of a kind, and the last parameter is the kind that it is not of: that of its first rejected item,
if it has any. -/
inductive Rejects (constraints : Members) (policy : UntypedLists) : Kind → Json → Kind → Prop
  | value {kind : Kind} {value : Json} (hkind : kind ≠ list) (hvalue : ¬ Accepts constraints policy kind value) :
      Rejects constraints policy kind value kind
  | notArray {value : Json} (hvalue : ∀ items, value ≠ .arr items) : Rejects constraints policy list value list
  | unknown (items : List Json) (hunknown : ItemsUnknown constraints) : Rejects constraints policy list (.arr items) list
  | untyped (items : List Json) (huntyped : ItemsUntyped constraints) (hpolicy : policy = .reject) :
      Rejects constraints policy list (.arr items) list
  | item {inner reported : Kind} {before after : List Json} {item : Json} (hinner : ItemsAre constraints inner)
      (hbefore : ∀ earlier ∈ before, Accepts constraints policy inner earlier)
      (hitem : Rejects constraints policy inner item reported) :
      Rejects constraints policy list (.arr (before ++ item :: after)) reported

/-- A value is built from arrays alone. -/
inductive OnlyArrays : Json → Prop
  | arr {items : List Json} (hitems : ∀ item ∈ items, OnlyArrays item) : OnlyArrays (.arr items)

variable {constraints : Members} {policy : UntypedLists} {kind inner reported : Kind} {value : Json} {items : List Json}

/-! ### Reading constraints -/

theorem bind_asString?_eq_some_iff {params : Members} {key name : String} :
    (params.get? key).bind Json.asString? = some name ↔ params.get? key = some (.str name) := by
  simp only [Option.bind_eq_some_iff, Json.asString?_eq_some_iff, exists_eq_right]

theorem itemRule_eq_each_iff : itemRule constraints = .each inner ↔ ItemsAre constraints inner := by
  simp only [itemRule, ItemsAre, ← bind_asString?_eq_some_iff, ← ofName?_eq_some_iff]
  generalize (constraints.get? Constraint.innerType).bind Json.asString? = name?
  cases name? with
  | none => simp
  | some name => cases hkind : ofName? name <;> simp [hkind]

theorem itemRule_eq_unknown_iff : itemRule constraints = .unknown ↔ ItemsUnknown constraints := by
  simp only [itemRule, ItemsUnknown, ← bind_asString?_eq_some_iff, ← ofName?_eq_some_iff]
  generalize (constraints.get? Constraint.innerType).bind Json.asString? = name?
  cases name? with
  | none => simp
  | some name => cases hkind : ofName? name <;> simp [hkind]

theorem itemRule_eq_untyped_iff : itemRule constraints = .untyped ↔ ItemsUntyped constraints := by
  simp only [itemRule, ItemsUntyped, ne_eq, ← bind_asString?_eq_some_iff]
  generalize (constraints.get? Constraint.innerType).bind Json.asString? = name?
  cases name? with
  | none => simp
  | some name => cases hkind : ofName? name <;> simp [hkind]

/-! ### Paths of images -/

theorem extension?_eq_some_iff {path extension : String} :
    extension? path = some extension ↔ ∃ stem, path = stem ++ "." ++ extension ∧ '.' ∉ extension.toList := by
  rw [extension?, Option.map_eq_some_iff]
  constructor
  · rintro ⟨⟨stem, after⟩, hcut, rfl⟩
    obtain ⟨hpath, hafter⟩ := Text.cutLast?_eq_some_iff.1 hcut
    refine ⟨String.ofList stem, ?_, by rwa [String.toList_ofList]⟩
    rw [← String.toList_inj, hpath]
    simp
  · rintro ⟨stem, rfl, hextension⟩
    refine ⟨(stem.toList, extension.toList), Text.cutLast?_eq_some_iff.2 ⟨?_, hextension⟩, String.ofList_toList⟩
    simp

theorem acceptedExtensions?_eq_some_iff {types : List Json} :
    acceptedExtensions? constraints = some types ↔
      constraints.get? Constraint.acceptedTypes = some (.arr types) ∧ types ≠ [] := by
  unfold acceptedExtensions?
  split
  · rename_i first rest hget
    rw [hget]
    simp only [Option.some.injEq, Json.arr.injEq]
    exact ⟨fun heq => ⟨heq, heq ▸ List.cons_ne_nil first rest⟩, And.left⟩
  · rename_i hother
    constructor
    · intro hnone
      cases hnone
    · rintro ⟨hget, hne⟩
      obtain ⟨first, rest, rfl⟩ := List.exists_cons_of_ne_nil hne
      exact absurd hget (hother first rest)

theorem acceptsExtension_iff {types : List Json} {extension : String} :
    acceptsExtension types extension = true ↔
      ∃ entry, .str entry ∈ types ∧ Text.lowercase entry = Text.lowercase extension := by
  simp only [acceptsExtension, List.any_eq_true, List.mem_filterMap, Json.asString?_eq_some_iff, exists_eq_right, beq_iff_eq]

theorem isImagePath_iff {path : String} : isImagePath constraints path = true ↔ ImagePath constraints path := by
  have haccepted : ∀ extension, ExtensionAccepted constraints extension ↔
      ∀ types, acceptedExtensions? constraints = some types → acceptsExtension types extension = true := by
    intro extension
    simp only [ExtensionAccepted, acceptedExtensions?_eq_some_iff, acceptsExtension_iff, and_imp]
  have hpath : ImagePath constraints path ↔
      ∃ extension, extension? path = some extension ∧ ExtensionAccepted constraints extension := by
    simp only [ImagePath, extension?_eq_some_iff]
    constructor
    · rintro ⟨stem, extension, heq, hpoint, hext⟩
      exact ⟨extension, ⟨stem, heq, hpoint⟩, hext⟩
    · rintro ⟨extension, ⟨stem, heq, hpoint⟩, hext⟩
      exact ⟨stem, extension, heq, hpoint, hext⟩
  rw [hpath, isImagePath]
  cases extension? path with
  | none => simp
  | some extension =>
      simp only [Option.some.injEq, exists_eq_left', haccepted]
      cases acceptedExtensions? constraints <;> simp

/-! ### One value -/

theorem admits_iff (hvalue : value.asArray? = none) :
    kind.admits constraints value = true ↔ Accepts constraints policy kind value := by
  constructor
  · intro hadmits
    cases kind with
    | integer =>
        cases value with
        | int n => exact .integer n
        | _ => nomatch hadmits
    | str | longStr | url | email | select =>
        obtain ⟨s, rfl⟩ := isString_iff.1 hadmits
        exact .text (by decide) s
    | toggle =>
        cases value with
        | bool b => exact .toggle b
        | _ => nomatch hadmits
    | image =>
        cases value with
        | str path => exact .image (isImagePath_iff.1 hadmits)
        | _ => nomatch hadmits
    | list => nomatch hadmits
  · intro haccepts
    cases haccepts with
    | integer n => rfl
    | text hkind s =>
        simp only [texts, List.mem_cons, List.not_mem_nil, or_false] at hkind
        rcases hkind with rfl | rfl | rfl | rfl | rfl <;> rfl
    | toggle b => rfl
    | image hpath => exact isImagePath_iff.2 hpath
    | items | untyped => nomatch hvalue

theorem accepts_arr_iff : Accepts constraints policy kind (.arr items) ↔ kind = list ∧
    ((∃ inner, ItemsAre constraints inner ∧ ∀ item ∈ items, Accepts constraints policy inner item) ∨
      ItemsUntyped constraints ∧ policy = .accept) := by
  constructor
  · intro haccepts
    cases haccepts with
    | items hinner hitems => exact ⟨rfl, .inl ⟨_, hinner, hitems⟩⟩
    | untyped _ huntyped hpolicy => exact ⟨rfl, .inr ⟨huntyped, hpolicy⟩⟩
  · rintro ⟨rfl, ⟨inner, hinner, hitems⟩ | ⟨huntyped, hpolicy⟩⟩
    · exact .items hinner hitems
    · exact .untyped items huntyped hpolicy

theorem accepts_int_iff {n : Int} : Accepts constraints policy kind (.int n) ↔ kind = integer := by
  constructor
  · intro haccepts
    cases haccepts
    rfl
  · rintro rfl
    exact .integer n

theorem rejects_iff_of_not_array (hvalue : value.asArray? = none) :
    Rejects constraints policy kind value reported ↔ ¬ Accepts constraints policy kind value ∧ reported = kind := by
  constructor
  · intro hrejects
    cases hrejects with
    | value _ hnot => exact ⟨hnot, rfl⟩
    | notArray hnotArray =>
        refine ⟨fun haccepts => ?_, rfl⟩
        cases haccepts with
        | text hkind => nomatch hkind
        | items | untyped => nomatch hvalue
    | unknown | untyped | item => nomatch hvalue
  · rintro ⟨hnot, rfl⟩
    by_cases hlist : reported = list
    · subst hlist
      refine .notArray fun items heq => ?_
      rw [heq] at hvalue
      nomatch hvalue
    · exact .value hlist hnot

theorem rejects_arr_iff : Rejects constraints policy kind (.arr items) reported ↔
    (kind ≠ list ∧ reported = kind) ∨
    (kind = list ∧
      ((∃ inner before item after, ItemsAre constraints inner ∧ items = before ++ item :: after ∧
          (∀ earlier ∈ before, Accepts constraints policy inner earlier) ∧
          Rejects constraints policy inner item reported) ∨
        (ItemsUnknown constraints ∨ ItemsUntyped constraints ∧ policy = .reject) ∧ reported = list)) := by
  constructor
  · intro hrejects
    cases hrejects with
    | value hkind => exact .inl ⟨hkind, rfl⟩
    | notArray hvalue => exact absurd rfl (hvalue items)
    | unknown _ hunknown => exact .inr ⟨rfl, .inr ⟨.inl hunknown, rfl⟩⟩
    | untyped _ huntyped hpolicy => exact .inr ⟨rfl, .inr ⟨.inr ⟨huntyped, hpolicy⟩, rfl⟩⟩
    | item hinner hbefore hitem => exact .inr ⟨rfl, .inl ⟨_, _, _, _, hinner, rfl, hbefore, hitem⟩⟩
  · rintro (⟨hkind, rfl⟩ | ⟨rfl, ⟨inner, before, item, after, hinner, rfl, hbefore, hitem⟩ | ⟨hunusable, rfl⟩⟩)
    · exact .value hkind fun haccepts => hkind (accepts_arr_iff.1 haccepts).1
    · exact .item hinner hbefore hitem
    · rcases hunusable with hunknown | ⟨huntyped, hpolicy⟩
      · exact .unknown items hunknown
      · exact .untyped items huntyped hpolicy

/-! ### The checks -/

theorem checkItems_eq_forM :
    checkItems constraints policy kind items = forM items (check constraints policy kind) := by
  induction items with
  | nil => rw [checkItems]; rfl
  | cons item rest ih =>
      rw [checkItems, List.forM_cons, ih]
      cases check constraints policy kind item <;> rfl

theorem check_eq_ok_iff : check constraints policy kind value = .ok () ↔ Accepts constraints policy kind value := by
  have hother : ∀ kind (own : Json), own.asArray? = none →
      (check constraints policy kind own = .ok () ↔ Accepts constraints policy kind own) := by
    intro kind own hown
    rw [check_of_not_array hown, ← admits_iff hown]
    split <;> simp_all
  induction value using Json.induct generalizing kind with
  | harr items ih =>
      have hitems : ∀ inner, checkItems constraints policy inner items = .ok () ↔
          ∀ item ∈ items, Accepts constraints policy inner item := by
        intro inner
        rw [checkItems_eq_forM, Except.forM_eq_ok_iff]
        exact forall₂_congr fun item hmem => ih item hmem
      rw [check_arr, accepts_arr_iff]
      by_cases hlist : kind = list
      · simp only [hlist, true_and, ← itemRule_eq_each_iff, ← itemRule_eq_untyped_iff]
        cases itemRule constraints with
        | each inner => simp [hitems]
        | unknown => simp
        | untyped => cases policy <;> simp
      · simp [hlist]
  | hnull | hbool | hint | hfloat | hstr | hobj => exact hother kind _ rfl

theorem check_eq_error_iff :
    check constraints policy kind value = .error ⟨reported⟩ ↔ Rejects constraints policy kind value reported := by
  have hother : ∀ kind (own : Json), own.asArray? = none →
      (check constraints policy kind own = .error ⟨reported⟩ ↔ Rejects constraints policy kind own reported) := by
    intro kind own hown
    rw [rejects_iff_of_not_array hown, check_of_not_array hown, ← admits_iff hown, @eq_comm _ reported]
    split <;> simp_all
  induction value using Json.induct generalizing kind with
  | harr items ih =>
      have hitems : ∀ inner, checkItems constraints policy inner items = .error ⟨reported⟩ ↔
          ∃ before item after, items = before ++ item :: after ∧
            (∀ earlier ∈ before, Accepts constraints policy inner earlier) ∧
            Rejects constraints policy inner item reported := by
        intro inner
        rw [checkItems_eq_forM, Except.forM_eq_error_iff]
        refine exists_congr fun before => exists_congr fun item => exists_congr fun after => and_congr_right ?_
        rintro rfl
        simp only [check_eq_ok_iff, ih item (List.mem_append_right _ List.mem_cons_self)]
      rw [check_arr, rejects_arr_iff, @eq_comm _ reported, @eq_comm _ reported]
      by_cases hlist : kind = list
      · simp only [hlist, true_and, ← itemRule_eq_each_iff, ← itemRule_eq_untyped_iff,
          ← itemRule_eq_unknown_iff]
        cases itemRule constraints with
        | each inner => simp [hitems]
        | unknown => simp
        | untyped => cases policy <;> simp
      · simp [hlist]
  | hnull | hbool | hint | hfloat | hstr | hobj => exact hother kind _ rfl

/-! ### Lists of lists -/

theorem ItemsAre.unique {other : Kind} (hinner : ItemsAre constraints inner) (hother : ItemsAre constraints other) :
    inner = other := by
  have hsame := (itemRule_eq_each_iff.2 hinner).symm.trans (itemRule_eq_each_iff.2 hother)
  exact ItemRule.each.inj hsame

theorem ItemsAre.not_untyped (hinner : ItemsAre constraints inner) : ¬ ItemsUntyped constraints := by
  obtain ⟨name, hname, -⟩ := hinner
  exact fun huntyped => huntyped name hname

/-- No smaller kind ends the recursion of a list of lists, so it goes on to the innermost arrays. -/
theorem accepts_list_iff_onlyArrays (hlists : ItemsAre constraints list) :
    Accepts constraints policy list value ↔ OnlyArrays value := by
  constructor
  · intro haccepts
    induction value using Json.induct with
    | harr items ih =>
        obtain ⟨-, ⟨inner, hinner, hitems⟩ | ⟨huntyped, -⟩⟩ := accepts_arr_iff.1 haccepts
        · obtain rfl := hlists.unique hinner
          exact .arr fun item hmem => ih item hmem (hitems item hmem)
        · exact absurd huntyped hlists.not_untyped
    | hnull | hbool | hint | hfloat | hobj => nomatch haccepts
    | hstr s =>
        cases haccepts with
        | text hkind => nomatch hkind
  · intro hvalue
    induction hvalue with
    | arr _ ih => exact .items hlists ih

/-- Every value is accepted, or rejected as a value of some kind, and its check says which. -/
theorem check_accepts_or_rejects (constraints : Members) (policy : UntypedLists) (kind : Kind) (value : Json) :
    (check constraints policy kind value = .ok () ↔ Accepts constraints policy kind value) ∧
    (∀ reported, check constraints policy kind value = .error ⟨reported⟩ ↔
      Rejects constraints policy kind value reported) ∧
    (Accepts constraints policy kind value ∨ ∃ reported, Rejects constraints policy kind value reported) ∧
    (ItemsAre constraints list → (check constraints policy list value = .ok () ↔ OnlyArrays value)) := by
  refine ⟨check_eq_ok_iff, fun reported => check_eq_error_iff, ?_, fun hlists => ?_⟩
  · cases hcheck : check constraints policy kind value with
    | ok => exact .inl (check_eq_ok_iff.1 hcheck)
    | error mismatch => exact .inr ⟨mismatch.expected, check_eq_error_iff.1 hcheck⟩
  · exact check_eq_ok_iff.trans (accepts_list_iff_onlyArrays hlists)

/-- Constraints of a list whose items are lists. -/
def listsOfLists : Members := [(Constraint.innerType, .str "list")]

theorem check_accepts_or_rejects_listsOfLists :
    ItemsAre listsOfLists list ∧ OnlyArrays (.arr [.arr [], .arr [.arr []]]) ∧
    Rejects listsOfLists .reject list (.arr [.arr [], .arr [.int 1], .null]) list := by
  have hlists : ItemsAre listsOfLists list := ⟨"list", rfl, ofName?_eq_some_iff.1 rfl⟩
  refine ⟨hlists, ?_, ?_⟩
  · exact ((check_accepts_or_rejects listsOfLists .reject list (.arr [.arr [], .arr [.arr []]])).2.2.2 hlists).1 rfl
  · exact ((check_accepts_or_rejects listsOfLists .reject list (.arr [.arr [], .arr [.int 1], .null])).2.1 list).1 rfl

end AddressBook.Kind
