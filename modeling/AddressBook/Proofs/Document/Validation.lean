import AddressBook.Proofs.Document.Groups
import AddressBook.Proofs.Document.Sound
import AddressBook.Proofs.Outcome
/-!
# Validation decides soundness

Each rule of the validation of a schema document is read as the rule that it decides: the rule lets a
document pass exactly when the document is sound in that respect. The main statement puts them together,
`Document.validate_eq_ok_iff`.

The rule for texts needs no reading of its own: the parameters that it looks at have been looked at before,
field by field. The rule for shared values compares values of any type; where the parameter is a number in
every field, it is a rule about numbers.
-/

namespace AddressBook

theorem ParameterType.admits_iff {type : ParameterType} {value : Json} :
    type.admits value = true ↔ type.Holds value := by
  constructor
  · intro hadmits
    cases type <;> cases value <;> first | constructor | simp [admits, Json.isString, Json.isBool, Json.isInteger, Json.isObject, Json.asString?, Json.asBool?, Json.asObject?] at hadmits
  · intro hholds
    cases hholds <;> rfl

theorem Kind.ofName?_eq_some_iff {name : String} {kind : Kind} : ofName? name = some kind ↔ Registered name kind := by
  have hlookup : ∀ entries : List (String × Kind), (entries.map Prod.fst).Nodup →
      (entries.lookup name = some kind ↔ (name, kind) ∈ entries) := by
    intro entries hnodup
    induction entries with
    | nil => simp
    | cons entry rest ih =>
        obtain ⟨other, otherKind⟩ := entry
        simp only [List.map_cons, List.nodup_cons] at hnodup
        by_cases hname : name = other
        · subst hname
          have hrest : (name, kind) ∉ rest := fun hmem => hnodup.1 (List.mem_map_of_mem hmem)
          simp [hrest, eq_comm]
        · have hbeq : (name == other) = false := by simpa using hname
          simp [List.lookup_cons, hbeq, hname, ih hnodup.2]
  exact hlookup registry (by decide)

namespace Document

/-! ### Parameters -/

theorem has_iff {params : Members} {key : String} {value : Json} :
    Has params key value ↔ param? params key = some value := by
  have hnull : value ≠ .null ↔ (!value.isNull) = true := by cases value <;> simp [Json.isNull]
  rw [Has, param?, Option.filter_eq_some_iff, hnull]

theorem isTrue_iff {params : Members} {key : String} : isTrue params key = true ↔ Has params key (.bool true) := by
  unfold isTrue Has
  split
  · simp_all
  · rename_i hother
    simpa using hother

theorem bind_asObject?_eq_some_iff {params : Members} {key : String} {members : Members} :
    (param? params key).bind Json.asObject? = some members ↔ Has params key (.obj members) := by
  rw [has_iff, Option.bind_eq_some_iff]
  constructor
  · rintro ⟨value, hparam, hobject⟩
    cases value <;> simp_all [Json.asObject?]
  · exact fun hparam => ⟨_, hparam, rfl⟩

theorem bind_asArray?_eq_some_iff {params : Members} {key : String} {items : List Json} :
    (param? params key).bind Json.asArray? = some items ↔ Has params key (.arr items) := by
  rw [has_iff, Option.bind_eq_some_iff]
  constructor
  · rintro ⟨value, hparam, harray⟩
    cases value <;> simp_all [Json.asArray?]
  · exact fun hparam => ⟨_, hparam, rfl⟩

theorem isString_iff {value : Json} : value.isString = true ↔ ∃ s, value = .str s := by
  cases value <;> simp [Json.isString, Json.asString?]

theorem all_isString_iff {values : List Json} :
    values.all Json.isString = true ↔ ∃ texts : List String, values = texts.map .str := by
  induction values with
  | nil => simp [eq_comm]
  | cons value rest ih =>
      rw [List.all_cons, Bool.and_eq_true, isString_iff, ih]
      constructor
      · rintro ⟨⟨s, rfl⟩, texts, rfl⟩
        exact ⟨s :: texts, rfl⟩
      · rintro ⟨texts, htexts⟩
        cases texts with
        | nil => simp at htexts
        | cons s texts =>
            simp only [List.map_cons, List.cons.injEq] at htexts
            exact ⟨⟨s, htexts.1⟩, texts, htexts.2⟩

/-! ### Constraints -/

theorem neededConstraints_eq_ok_iff {name : String} {kind : Kind} {constraints : Option Members} {members : Members} :
    neededConstraints name kind constraints = .ok members ↔ constraints = some members := by
  cases constraints <;> simp [neededConstraints]

theorem listRule_eq_ok_iff {name : String} {constraints : Option Members} :
    listRule name constraints = .ok () ↔ ∃ members, constraints = some members ∧ ListConstraints members := by
  simp only [listRule, Except.bind_eq_ok_iff, neededConstraints_eq_ok_iff]
  refine exists_congr fun members => and_congr_right fun _ => ?_
  simp only [ListConstraints, has_iff, ← Kind.ofName?_eq_some_iff]
  split
  · simp_all
  · rename_i inner hinner
    simp only [hinner, Option.some.injEq, Json.str.injEq]
    split <;> simp_all
  · rename_i other hnotString hother
    simp only [reduceCtorEq, false_iff, not_exists, not_and]
    intro inner _ hinner
    exact absurd (Option.some.inj (hother.symm.trans hinner)) (hnotString inner)

theorem selectRule_eq_ok_iff {name : String} {constraints : Option Members} :
    selectRule name constraints = .ok () ↔ ∃ members, constraints = some members ∧ SelectConstraints members := by
  simp only [selectRule, Except.bind_eq_ok_iff, neededConstraints_eq_ok_iff]
  refine exists_congr fun members => and_congr_right fun _ => ?_
  simp only [SelectConstraints, ← bind_asArray?_eq_some_iff]
  split
  · rename_i hnone
    simp [hnone]
  · rename_i values hvalues
    simp only [hvalues, Option.some.injEq, ← all_isString_iff]
    split <;> simp_all

theorem imageRule_eq_ok_iff {name : String} {constraints : Members} :
    imageRule name constraints = .ok () ↔ ImageConstraints constraints := by
  simp only [imageRule, ImageConstraints, ← bind_asArray?_eq_some_iff]
  split
  · rename_i hnone
    simp [hnone]
  · rename_i types htypes
    simp only [htypes, Option.some.injEq]
    split
    · rename_i hsound
      simp only [Bool.and_eq_true, all_isString_iff, Bool.not_eq_true', List.isEmpty_eq_false_iff] at hsound
      obtain ⟨hne, texts, rfl⟩ := hsound
      simp only [ne_eq, List.map_eq_nil_iff] at hne
      simpa using ⟨texts, hne, rfl⟩
    · rename_i hunsound
      simp only [reduceCtorEq, false_iff]
      rintro ⟨texts, hne, rfl⟩
      refine hunsound ?_
      rw [Bool.and_eq_true, all_isString_iff]
      exact ⟨by simpa using hne, texts, rfl⟩

theorem toggleTextRule_eq_ok_iff {name key : String} {text : Option Json} :
    toggleTextRule name key text = .ok () ↔ ∀ value, text = some value → ∃ s, value = .str s := by
  cases text with
  | none => simp [toggleTextRule]
  | some value => simp [toggleTextRule, ← isString_iff]

theorem toggleRule_eq_ok_iff {name : String} {constraints : Members} :
    toggleRule name constraints = .ok () ↔ ToggleConstraints constraints := by
  have hdefined : (∃ value, Has constraints Constraint.valueTrue value ∨ Has constraints Constraint.valueFalse value) ↔
      ¬ ((param? constraints Constraint.valueTrue).isNone && (param? constraints Constraint.valueFalse).isNone) = true := by
    simp only [has_iff, Bool.and_eq_true, Option.isNone_iff_eq_none, Option.eq_none_iff_forall_ne_some]
    grind
  have hempty : (Has constraints Constraint.valueTrue (.str "") ↔ Has constraints Constraint.valueFalse (.str "")) ↔
      ¬ ((param? constraints Constraint.valueTrue == some (.str "")) !=
        (param? constraints Constraint.valueFalse == some (.str ""))) = true := by
    simp only [has_iff, bne_iff_ne, Decidable.not_not]
    grind
  have hparts : ToggleConstraints constraints ↔ _ ∧ _ ∧ _ ∧ _ :=
    ⟨fun h => ⟨h.defined, h.valueTrue, h.valueFalse, h.empty⟩, fun h => ⟨h.1, h.2.1, h.2.2.1, h.2.2.2⟩⟩
  rw [hparts, hdefined, hempty]
  simp only [has_iff]
  rw [← @toggleTextRule_eq_ok_iff name Constraint.valueTrue, ← @toggleTextRule_eq_ok_iff name Constraint.valueFalse]
  unfold toggleRule
  dsimp only
  split
  · rename_i hundefined
    simp [hundefined, bind, Except.bind]
  · rename_i hsome
    simp only [Except.then_eq_ok_iff, hsome, Bool.false_eq_true, not_false_eq_true, true_and]
    refine and_congr_right fun _ => and_congr_right fun _ => ?_
    split <;> simp_all [Except.pure_eq_ok_iff]

theorem kindRule_eq_ok_iff {entry : Entry} {kind : Kind} :
    kindRule entry.name ((param? entry.params Parameter.constraints).bind Json.asObject?) kind = .ok () ↔
      entry.Fits kind := by
  cases kind with
  | list => simp [kindRule, Entry.Fits, Entry.Needs, listRule_eq_ok_iff, ← bind_asObject?_eq_some_iff]
  | select => simp [kindRule, Entry.Fits, Entry.Needs, selectRule_eq_ok_iff, ← bind_asObject?_eq_some_iff]
  | image =>
      simp only [kindRule, Entry.Fits, Entry.Allows, ← bind_asObject?_eq_some_iff]
      generalize (param? entry.params Parameter.constraints).bind Json.asObject? = constraints
      cases constraints <;> simp [imageRule_eq_ok_iff]
  | toggle =>
      simp only [kindRule, Entry.Fits, Entry.Allows, ← bind_asObject?_eq_some_iff]
      generalize (param? entry.params Parameter.constraints).bind Json.asObject? = constraints
      cases constraints <;> simp [toggleRule_eq_ok_iff]
  | _ => simp [kindRule, Entry.Fits]

/-! ### One field -/

theorem kindName_eq_ok_iff {entry : Entry} {name : String} :
    kindName entry = .ok name ↔ Has entry.params Parameter.kind (.str name) := by
  rw [has_iff, kindName]
  split <;> simp_all

theorem registeredKind_eq_ok_iff {entry : Entry} {name : String} {kind : Kind} :
    registeredKind entry name = .ok kind ↔ Kind.Registered name kind := by
  rw [← Kind.ofName?_eq_some_iff, registeredKind]
  split <;> simp_all

theorem typeRules_eq_ok_iff {entry : Entry} {parameters : List (String × ParameterType)} :
    typeRules entry parameters = .ok () ↔ ∀ p ∈ parameters, entry.Typed p.1 p.2 := by
  induction parameters with
  | nil => simp [typeRules]
  | cons parameter rest ih =>
      obtain ⟨key, type⟩ := parameter
      have htyped : entry.Typed key type ↔ ∀ value, param? entry.params key = some value → type.admits value = true := by
        simp only [Entry.Typed, has_iff, ParameterType.admits_iff]
      rw [List.forall_mem_cons, htyped, ← ih, typeRules]
      split
      · simp_all
      · split <;> simp_all

theorem fieldRules_eq_ok_iff {entry : Entry} : fieldRules entry = .ok () ↔ entry.Sound := by
  rw [fieldRules, Except.bind_eq_ok_iff]
  simp only [Except.then_eq_ok_iff, kindName_eq_ok_iff, typeRules_eq_ok_iff]
  simp only [Except.bind_eq_ok_iff, registeredKind_eq_ok_iff, kindRule_eq_ok_iff]
  constructor
  · rintro ⟨name, hname, htypes, kind, hkind, hfits⟩
    simp only [optionalParameters, List.forall_mem_cons] at htypes
    obtain ⟨hdisplay, hhelp, hrequired, hprimary, hmain, hsort, hconstraints, -⟩ := htypes
    exact ⟨⟨name, kind, hname, hkind, hfits⟩, hdisplay, hhelp, hrequired, hprimary, hmain, hsort, hconstraints⟩
  · intro hsound
    obtain ⟨name, kind, hname, hkind, hfits⟩ := hsound.kind
    refine ⟨name, hname, ?_, kind, hkind, hfits⟩
    simp only [optionalParameters, List.forall_mem_cons]
    exact ⟨hsound.displayName, hsound.formHelpText, hsound.required, hsound.primaryKey, hsound.mainAttribute,
      hsound.sortKey, hsound.constraints, by simp⟩

/-! ### Rules across fields -/

theorem forEach_eq_forM (rule : Entry → Except DocumentFault Unit) (entries : List Entry) :
    forEach rule entries = forM entries rule := by
  induction entries with
  | nil => rfl
  | cons entry rest ih => rw [forEach, ih, List.forM_cons]

theorem forEach_eq_ok_iff {rule : Entry → Except DocumentFault Unit} {entries : List Entry} :
    forEach rule entries = .ok () ↔ ∀ entry ∈ entries, rule entry = .ok () := by
  rw [forEach_eq_forM, Except.forM_eq_ok_iff]

theorem textRule_eq_ok_of_typed {entry : Entry} {key : String} (htyped : entry.Typed key .string) :
    textRule entry key = .ok () := by
  unfold textRule
  split
  · rfl
  · rename_i value hvalue
    obtain ⟨s⟩ := htyped value (has_iff.2 hvalue)
    rfl

/-- The texts have been looked at with the other parameters of their fields. -/
theorem textRules_eq_ok_of_sound {entries : List Entry} (hsound : ∀ entry ∈ entries, entry.Sound) :
    textRules entries = .ok () := by
  rw [textRules, forEach_eq_ok_iff]
  intro entry hmem
  rw [Except.then_eq_ok_iff]
  exact ⟨textRule_eq_ok_of_typed (hsound entry hmem).displayName,
    textRule_eq_ok_of_typed (hsound entry hmem).formHelpText⟩

theorem hasPrimaryKey_iff {entries : List Entry} :
    HasPrimaryKey entries ↔ ∃ key, primaryKeys entries = [key] ∧ key.IsRequired := by
  have hmarked : ∀ entry : Entry, isTrue entry.params Parameter.primaryKey = true ↔ entry.IsPrimaryKey := fun _ =>
    isTrue_iff
  simp only [HasPrimaryKey, primaryKeys, List.filter_eq_cons_iff, List.filter_eq_nil_iff, hmarked]
  constructor
  · rintro ⟨before, key, after, rfl, hkey, hrequired, hothers⟩
    exact ⟨key, ⟨before, after, rfl, fun other hmem => hothers other (List.mem_append_left _ hmem), hkey,
      fun other hmem => hothers other (List.mem_append_right _ hmem)⟩, hrequired⟩
  · rintro ⟨key, ⟨before, after, rfl, hbefore, hkey, hafter⟩, hrequired⟩
    refine ⟨before, key, after, rfl, hkey, hrequired, fun other hmem => ?_⟩
    exact (List.mem_append.1 hmem).elim (hbefore other) (hafter other)

theorem primaryKeyRule_eq_ok_iff {entries : List Entry} : primaryKeyRule entries = .ok () ↔ HasPrimaryKey entries := by
  rw [hasPrimaryKey_iff, primaryKeyRule]
  split
  · simp_all
  · rename_i key hkeys
    have hrequired : isTrue key.params Parameter.required = true ↔ key.IsRequired := isTrue_iff
    simp only [hkeys, List.cons.injEq, and_true]
    split <;> simp_all
  · rename_i hnone hseveral
    simp only [reduceCtorEq, false_iff, not_exists, not_and]
    exact fun key hkeys => absurd hkeys (hseveral key)

/-- Where a parameter is a number in every field, values that differ are numbers that differ. -/
theorem distinctRule_eq_ok_iff_of_typed {key : String} {entries : List Entry}
    (htyped : ∀ entry ∈ entries, entry.Typed key .integer) :
    distinctRule key entries = .ok () ↔ entries.Pairwise (Entry.DifferAt key) := by
  rw [distinctRule_eq_ok_iff]
  refine List.Pairwise.iff_of_mem fun {entry other} hentry _ => ?_
  simp only [Entry.DifferAt, has_iff]
  constructor
  · rintro hdiffer m n hm hn rfl
    exact hdiffer _ hm hn
  · intro hdiffer value hvalue hsame
    cases htyped entry hentry value (has_iff.2 hvalue) with
    | integer n => exact hdiffer n n hvalue hsame rfl

/-! ### The document -/

theorem entry_eq_ok_iff {name : String} {params : Json} {e : Entry} :
    entry name params = .ok e ↔ (name, params) = e.member ∧ name ≠ "" := by
  obtain ⟨other, members⟩ := e
  unfold entry
  split
  · simp_all
  · cases params <;> simp_all [Entry.member]

theorem entriesOf_eq_ok_iff {members : Members} {entries : List Entry} :
    entriesOf members = .ok entries ↔ members = entries.map Entry.member ∧ ∀ entry ∈ entries, entry.name ≠ "" := by
  induction members generalizing entries with
  | nil => cases entries <;> simp [entriesOf]
  | cons member rest ih =>
      obtain ⟨name, params⟩ := member
      simp only [entriesOf, Except.bind_eq_ok_iff, Except.pure_eq_ok_iff, entry_eq_ok_iff, ih]
      constructor
      · rintro ⟨first, ⟨hfirst, hname⟩, others, ⟨rfl, hothers⟩, rfl⟩
        have hsame : name = first.name := congrArg Prod.fst hfirst
        exact ⟨by rw [hfirst, List.map_cons], List.forall_mem_cons.2 ⟨hsame ▸ hname, hothers⟩⟩
      · intro ⟨hmembers, hnamed⟩
        cases entries with
        | nil => simp at hmembers
        | cons first others =>
            obtain ⟨hfirst, hothers⟩ := List.cons.inj hmembers
            obtain ⟨hname, hrest⟩ := List.forall_mem_cons.1 hnamed
            have hsame : name = first.name := congrArg Prod.fst hfirst
            exact ⟨first, ⟨hfirst, hsame ▸ hname⟩, others, ⟨hothers, hrest⟩, rfl⟩

theorem entries_eq_ok_iff {document : Json} {all : List Entry} :
    entries document = .ok all ↔ document = .obj (all.map Entry.member) ∧ ∀ entry ∈ all, entry.name ≠ "" := by
  cases document <;> simp [entries, entriesOf_eq_ok_iff]

theorem validate_eq_ok_iff_of_entries {document : Json} {all : List Entry} (hentries : entries document = .ok all) :
    validate document = .ok () ↔ SoundEntries all := by
  have hnamed := (entries_eq_ok_iff.1 hentries).2
  have hrules : validate document = .ok () ↔ primaryKeyRule all = .ok () ∧ forEach fieldRules all = .ok () ∧
      textRules all = .ok () ∧ distinctRule Parameter.sortKey all = .ok () ∧
      distinctRule Parameter.mainAttribute all = .ok () := by
    rw [validate, hentries]
    exact Except.then_eq_ok_iff.trans (and_congr_right fun _ => Except.then_eq_ok_iff.trans (and_congr_right fun _ =>
      Except.then_eq_ok_iff.trans (and_congr_right fun _ => Except.then_eq_ok_iff)))
  rw [hrules, primaryKeyRule_eq_ok_iff, forEach_eq_ok_iff]
  simp only [fieldRules_eq_ok_iff]
  constructor
  · rintro ⟨hkey, hfields, -, hsort, hmain⟩
    rw [distinctRule_eq_ok_iff_of_typed fun entry hmem => (hfields entry hmem).sortKey] at hsort
    rw [distinctRule_eq_ok_iff_of_typed fun entry hmem => (hfields entry hmem).mainAttribute] at hmain
    exact ⟨hnamed, hkey, hfields, hsort, hmain⟩
  · intro hsound
    have hfields := hsound.fields
    refine ⟨hsound.primaryKey, hfields, textRules_eq_ok_of_sound hfields, ?_, ?_⟩
    · exact (distinctRule_eq_ok_iff_of_typed fun entry hmem => (hfields entry hmem).sortKey).2 hsound.sortKeys
    · exact (distinctRule_eq_ok_iff_of_typed fun entry hmem => (hfields entry hmem).mainAttribute).2 hsound.mainAttributes

theorem exists_entries_of_validate {document : Json} (hvalid : validate document = .ok ()) :
    ∃ all, entries document = .ok all := by
  obtain ⟨all, hentries, -⟩ := Except.bind_eq_ok_iff.1 hvalid
  exact ⟨all, hentries⟩

/-- A schema document is valid exactly if it is sound. -/
theorem validate_eq_ok_iff_sound (document : Json) : validate document = .ok () ↔ Sound document := by
  constructor
  · intro hvalid
    obtain ⟨all, hentries⟩ := exists_entries_of_validate hvalid
    exact ⟨all, (entries_eq_ok_iff.1 hentries).1, (validate_eq_ok_iff_of_entries hentries).1 hvalid⟩
  · rintro ⟨all, hdocument, hsound⟩
    have hentries : entries document = .ok all := entries_eq_ok_iff.2 ⟨hdocument, hsound.named⟩
    exact (validate_eq_ok_iff_of_entries hentries).2 hsound

end Document

end AddressBook
