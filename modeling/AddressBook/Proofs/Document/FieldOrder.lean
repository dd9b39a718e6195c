import AddressBook.Proofs.Document.Order
import AddressBook.Proofs.Document.Validation
/-!
# The first broken rule of a field

A field that is refused breaks the rule that the report tells of, and none of the rules before it. A rule that lets a
field pass is followed, and that is read off the soundness that it decides.
-/

namespace AddressBook

theorem Kind.Registered.unique {name : String} {kind other : Kind} (hkind : Registered name kind)
    (hother : Registered name other) : kind = other :=
  Option.some.inj ((ofName?_eq_some_iff.2 hkind).symm.trans (ofName?_eq_some_iff.2 hother))

namespace Document

variable {entry : Entry} {fault : DocumentFault} {name : String}

/-! ### Parameters -/

theorem Has.unique {params : Members} {key : String} {value other : Json} (hvalue : Has params key value)
    (hother : Has params key other) : value = other :=
  Option.some.inj (hvalue.1.symm.trans hother.1)

theorem not_has_of_param?_eq_none {params : Members} {key : String} (hnone : param? params key = none) (value : Json) :
    ¬ Has params key value := by
  rw [has_iff, hnone]
  exact nofun

theorem ne_str_of_isString {value : Json} (hother : ¬ value.isString = true) (s : String) : value ≠ .str s := by
  intro heq
  exact hother (isString_iff.2 ⟨s, heq⟩)

/-! ### Constraints -/

theorem unfit_of_listRule {constraints : Members} (hfails : listRule entry.name (some constraints) = .error fault) :
    entry.Unfit constraints .list fault.report := by
  rw [listRule, Except.bind_eq_error_iff] at hfails
  rcases hfails with hfails | ⟨own, hown, hfails⟩
  · cases hfails
  obtain rfl := Except.ok.inj hown
  split at hfails
  · rename_i hnone
    obtain rfl := Except.error.inj hfails
    exact .innerTypeMissing (not_has_of_param?_eq_none hnone)
  · rename_i inner hinner
    split at hfails
    · rename_i hkind
      obtain rfl := Except.error.inj hfails
      refine .innerTypeUnknown (has_iff.2 hinner) fun kind hregistered => ?_
      rw [← Kind.ofName?_eq_some_iff, hkind] at hregistered
      cases hregistered
    · rename_i hkind
      obtain rfl := Except.error.inj hfails
      exact .listOfLists (has_iff.2 hinner) (Kind.ofName?_eq_some_iff.1 hkind)
    · cases hfails
  · rename_i other hnotString hother
    obtain rfl := Except.error.inj hfails
    refine .innerTypeNotString (has_iff.2 hother) fun s heq => ?_
    exact hnotString s (heq ▸ rfl)

theorem unfit_of_selectRule {constraints : Members} (hfails : selectRule entry.name (some constraints) = .error fault) :
    entry.Unfit constraints .select fault.report := by
  rw [selectRule, Except.bind_eq_error_iff] at hfails
  rcases hfails with hfails | ⟨own, hown, hfails⟩
  · cases hfails
  obtain rfl := Except.ok.inj hown
  split at hfails
  · rename_i hnone
    obtain rfl := Except.error.inj hfails
    refine .allowedValuesMissing fun values hvalues => ?_
    rw [← bind_asArray?_eq_some_iff, hnone] at hvalues
    cases hvalues
  · rename_i values hvalues
    split at hfails
    · cases hfails
    · rename_i hothers
      obtain rfl := Except.error.inj hfails
      rw [List.all_eq_true] at hothers
      push Not at hothers
      obtain ⟨value, hmem, hvalue⟩ := hothers
      exact .allowedValuesNotStrings (bind_asArray?_eq_some_iff.1 hvalues) hmem (ne_str_of_isString hvalue)

theorem unfit_of_imageRule {constraints : Members} (hfails : imageRule entry.name constraints = .error fault) :
    entry.Unfit constraints .image fault.report := by
  have himage : ¬ ImageConstraints constraints := by
    intro himage
    rw [imageRule_eq_ok_iff.2 himage] at hfails
    nomatch hfails
  have hfault : fault = .acceptedTypesUnusable entry.name := by
    unfold imageRule at hfails
    split at hfails
    · exact (Except.error.inj hfails).symm
    · split at hfails
      · nomatch hfails
      · exact (Except.error.inj hfails).symm
  rw [hfault]
  exact .acceptedTypes himage

theorem toggleTextRule_eq_error_iff {key : String} {text : Option Json} :
    toggleTextRule name key text = .error fault ↔
      ∃ value, text = some value ∧ ¬ value.isString = true ∧ .toggleValueNotString name key value = fault := by
  cases text with
  | none => simp [toggleTextRule]
  | some value =>
      simp only [toggleTextRule, Option.some.injEq, exists_eq_left']
      split
      · rename_i hstring
        simp [hstring]
      · rename_i hother
        exact ⟨fun heq => ⟨hother, Except.error.inj heq⟩, fun hfault => congrArg _ hfault.2⟩

theorem isText_of_toggleTextRule {constraints : Members} {key : String}
    (hpasses : toggleTextRule name key (param? constraints key) = .ok ()) : IsText constraints key := by
  intro value hvalue
  exact toggleTextRule_eq_ok_iff.1 hpasses value (has_iff.1 hvalue)

theorem unfit_of_toggleRule {constraints : Members} (hfails : toggleRule entry.name constraints = .error fault) :
    entry.Unfit constraints .toggle fault.report := by
  unfold toggleRule at hfails
  dsimp only at hfails
  split at hfails
  · rename_i hundefined
    obtain rfl := Except.error.inj hfails
    rw [Bool.and_eq_true, Option.isNone_iff_eq_none, Option.isNone_iff_eq_none] at hundefined
    exact .toggleUndefined (not_has_of_param?_eq_none hundefined.1) (not_has_of_param?_eq_none hundefined.2)
  · rw [Except.bind_eq_error_iff] at hfails
    rcases hfails with hfails | ⟨⟨⟩, hon, hfails⟩
    · obtain ⟨value, hvalue, hother, rfl⟩ := toggleTextRule_eq_error_iff.1 hfails
      exact .valueTrue (has_iff.2 hvalue) (ne_str_of_isString hother)
    · rw [Except.bind_eq_error_iff] at hfails
      rcases hfails with hfails | ⟨⟨⟩, hoff, hfails⟩
      · obtain ⟨value, hvalue, hother, rfl⟩ := toggleTextRule_eq_error_iff.1 hfails
        exact .valueFalse (isText_of_toggleTextRule hon) (has_iff.2 hvalue) (ne_str_of_isString hother)
      · split at hfails
        · rename_i hhalf
          obtain rfl := Except.error.inj hfails
          refine .toggleHalfEmpty (isText_of_toggleTextRule hon) (isText_of_toggleTextRule hoff) ?_
          rw [has_iff, has_iff]
          intro hsame
          exact bne_iff_ne.1 hhalf (Bool.eq_iff_iff.2 (by simpa only [beq_iff_eq] using hsame))
        · cases hfails

/-! ### One field -/

theorem breaks_of_kindName (hfails : kindName entry = .error fault) : entry.Breaks .kind fault.report := by
  unfold kindName at hfails
  split at hfails
  · rename_i hnone
    obtain rfl := Except.error.inj hfails
    exact .kindMissing (not_has_of_param?_eq_none hnone)
  · nomatch hfails
  · rename_i other hnotString hother
    obtain rfl := Except.error.inj hfails
    refine .kindNotString (has_iff.2 hother) fun s heq => ?_
    exact hnotString s (heq ▸ rfl)

theorem not_breaks_kind {rejection : Rejection} (hname : Has entry.params Parameter.kind (.str name)) :
    ¬ entry.Breaks .kind rejection := by
  intro hbreaks
  cases hbreaks with
  | kindMissing hmissing => exact hmissing _ hname
  | kindNotString hvalue hother => exact hother name (hvalue.unique hname)

theorem not_breaks_typed {parameter : OptionalParameter} {rejection : Rejection}
    (htyped : entry.Typed parameter.key parameter.type) : ¬ entry.Breaks (.typed parameter) rejection := by
  intro hbreaks
  cases hbreaks with
  | typed hvalue htype => exact htype (htyped _ hvalue)

/-- The parameters are looked at in a list, and the first of them without its type is reported. -/
theorem exists_breaks_of_typeRules {parameters : List OptionalParameter}
    (hsorted : parameters.Pairwise fun parameter other => parameter.rank < other.rank)
    (hfails : typeRules entry (parameters.map fun parameter => (parameter.key, parameter.type)) = .error fault) :
    ∃ parameter ∈ parameters, entry.Breaks (.typed parameter) fault.report ∧
      ∀ other ∈ parameters, other.rank < parameter.rank → entry.Typed other.key other.type := by
  induction parameters with
  | nil => nomatch hfails
  | cons first rest ih =>
      obtain ⟨hfirst, hrest⟩ := List.pairwise_cons.1 hsorted
      -- if the first parameter has its type, the failure is one of the others
      have hskip : entry.Typed first.key first.type →
          typeRules entry (rest.map fun parameter => (parameter.key, parameter.type)) = .error fault →
          ∃ parameter ∈ first :: rest, entry.Breaks (.typed parameter) fault.report ∧
            ∀ other ∈ first :: rest, other.rank < parameter.rank → entry.Typed other.key other.type := by
        intro htyped hothers
        obtain ⟨parameter, hmem, hbreaks, hearlier⟩ := ih hrest hothers
        exact ⟨parameter, List.mem_cons_of_mem _ hmem, hbreaks, List.forall_mem_cons.2 ⟨fun _ => htyped, hearlier⟩⟩
      rw [List.map_cons, typeRules] at hfails
      split at hfails
      · rename_i hnone
        exact hskip (fun value hvalue => absurd hvalue (not_has_of_param?_eq_none hnone value)) hfails
      · rename_i value hvalue
        split at hfails
        · rename_i hadmits
          refine hskip (fun own hown => ?_) hfails
          obtain rfl := Option.some.inj (hvalue.symm.trans (has_iff.1 hown))
          exact ParameterType.admits_iff.1 hadmits
        · rename_i hother
          obtain rfl := Except.error.inj hfails
          have htype : ¬ first.type.Holds value := fun hholds => hother (ParameterType.admits_iff.2 hholds)
          refine ⟨first, List.mem_cons_self, .typed (has_iff.2 hvalue) htype, List.forall_mem_cons.2 ⟨?_, ?_⟩⟩
          · intro hlt
            exact absurd hlt (Nat.lt_irrefl _)
          · intro other hmem hlt
            exact absurd hlt (Nat.lt_asymm (hfirst other hmem))

theorem breaks_of_registeredKind (hname : Has entry.params Parameter.kind (.str name))
    (hfails : registeredKind entry name = .error fault) : entry.Breaks .registered fault.report := by
  unfold registeredKind at hfails
  split at hfails
  · rename_i hnone
    obtain rfl := Except.error.inj hfails
    refine .kindUnknown hname fun kind hregistered => ?_
    rw [← Kind.ofName?_eq_some_iff, hnone] at hregistered
    nomatch hregistered
  · nomatch hfails

theorem not_breaks_registered {kind : Kind} {rejection : Rejection} (hname : Has entry.params Parameter.kind (.str name))
    (hkind : Kind.Registered name kind) : ¬ entry.Breaks .registered rejection := by
  intro hbreaks
  cases hbreaks with
  | kindUnknown hown hunknown =>
      obtain rfl := Json.str.inj (hown.unique hname)
      exact hunknown kind hkind

theorem breaks_of_kindRule {kind : Kind} (hname : Has entry.params Parameter.kind (.str name))
    (hkind : Kind.Registered name kind)
    (hfails : kindRule entry.name ((param? entry.params Parameter.constraints).bind Json.asObject?) kind =
      .error fault) : entry.Breaks .fits fault.report := by
  cases hconstraints : (param? entry.params Parameter.constraints).bind Json.asObject? with
  | none =>
      rw [hconstraints] at hfails
      have hnone : ∀ constraints, ¬ Has entry.params Parameter.constraints (.obj constraints) := by
        intro constraints hhas
        rw [← bind_asObject?_eq_some_iff, hconstraints] at hhas
        nomatch hhas
      cases kind with
      | list =>
          obtain rfl := Except.error.inj hfails
          exact .noConstraints hname hkind (.inl rfl) hnone
      | select =>
          obtain rfl := Except.error.inj hfails
          exact .noConstraints hname hkind (.inr rfl) hnone
      | _ => nomatch hfails
  | some constraints =>
      rw [hconstraints] at hfails
      have hhas := bind_asObject?_eq_some_iff.1 hconstraints
      refine .unfit hname hkind hhas ?_
      cases kind with
      | list => exact unfit_of_listRule hfails
      | select => exact unfit_of_selectRule hfails
      | image => exact unfit_of_imageRule hfails
      | toggle => exact unfit_of_toggleRule hfails
      | _ => nomatch hfails

theorem not_unfit_list {constraints : Members} {rejection : Rejection} (hlist : ListConstraints constraints) :
    ¬ entry.Unfit constraints .list rejection := by
  obtain ⟨inner, kind, hinner, hkind, hne⟩ := hlist
  intro hunfit
  cases hunfit with
  | innerTypeMissing hmissing => exact hmissing _ hinner
  | innerTypeNotString hvalue hother => exact hother inner (hvalue.unique hinner)
  | innerTypeUnknown hname hunknown =>
      obtain rfl := Json.str.inj (hname.unique hinner)
      exact hunknown kind hkind
  | listOfLists hname hlist =>
      obtain rfl := Json.str.inj (hname.unique hinner)
      exact hne (hkind.unique hlist)

theorem not_unfit_select {constraints : Members} {rejection : Rejection} (hselect : SelectConstraints constraints) :
    ¬ entry.Unfit constraints .select rejection := by
  obtain ⟨texts, htexts⟩ := hselect
  intro hunfit
  cases hunfit with
  | allowedValuesMissing hmissing => exact hmissing _ htexts
  | allowedValuesNotStrings hvalues hmem hother =>
      rw [Json.arr.inj (hvalues.unique htexts)] at hmem
      obtain ⟨s, -, rfl⟩ := List.mem_map.1 hmem
      exact hother s rfl

theorem not_unfit_toggle {constraints : Members} {rejection : Rejection} (htoggle : ToggleConstraints constraints) :
    ¬ entry.Unfit constraints .toggle rejection := by
  intro hunfit
  cases hunfit with
  | toggleUndefined hon hoff =>
      obtain ⟨value, hvalue⟩ := htoggle.defined
      exact hvalue.elim (hon value) (hoff value)
  | valueTrue hvalue hother =>
      obtain ⟨s, heq⟩ := htoggle.valueTrue _ hvalue
      exact hother s heq
  | valueFalse _ hvalue hother =>
      obtain ⟨s, heq⟩ := htoggle.valueFalse _ hvalue
      exact hother s heq
  | toggleHalfEmpty _ _ hhalf => exact hhalf htoggle.empty

theorem not_breaks_fits {rejection : Rejection} {kind : Kind} (hname : Has entry.params Parameter.kind (.str name))
    (hkind : Kind.Registered name kind) (hfits : entry.Fits kind) : ¬ entry.Breaks .fits rejection := by
  intro hbreaks
  cases hbreaks with
  | noConstraints hown hregistered hneeds hnone =>
      obtain rfl := Json.str.inj (hown.unique hname)
      obtain rfl := hregistered.unique hkind
      rcases hneeds with rfl | rfl
      · obtain ⟨constraints, hconstraints, -⟩ := hfits
        exact hnone constraints hconstraints
      · obtain ⟨constraints, hconstraints, -⟩ := hfits
        exact hnone constraints hconstraints
  | @unfit _ own constraints _ hown hregistered hconstraints hunfit =>
      obtain rfl := Json.str.inj (hown.unique hname)
      obtain rfl := hregistered.unique hkind
      have hneeded : ∀ {demand : Members → Prop}, entry.Needs demand → demand constraints := by
        intro demand hneeds
        obtain ⟨found, hfound, hdemand⟩ := hneeds
        exact Json.obj.inj (hfound.unique hconstraints) ▸ hdemand
      cases own with
      | list => exact not_unfit_list (hneeded hfits) hunfit
      | select => exact not_unfit_select (hneeded hfits) hunfit
      | image =>
          cases hunfit with
          | acceptedTypes himage => exact himage (hfits constraints hconstraints)
      | toggle => exact not_unfit_toggle (hfits constraints hconstraints) hunfit
      | _ => nomatch hunfit

/-- The optional parameters in the order in which they are looked at. -/
def OptionalParameter.all : List OptionalParameter :=
  [displayName, formHelpText, required, primaryKey, mainAttribute, sortKey, constraints]

theorem OptionalParameter.mem_all (parameter : OptionalParameter) : parameter ∈ all := by
  cases parameter <;> decide

theorem exists_breaks_of_fieldRules (hfails : fieldRules entry = .error fault) :
    ∃ rule, entry.Breaks rule fault.report ∧
      ∀ earlier : FieldRule, earlier.rank < rule.rank → ∀ rejection, ¬ entry.Breaks earlier rejection := by
  rw [fieldRules, Except.bind_eq_error_iff] at hfails
  rcases hfails with hfails | ⟨name, hkindName, hfails⟩
  · refine ⟨.kind, breaks_of_kindName hfails, ?_⟩
    intro earlier hlt
    cases earlier <;> simp [FieldRule.rank, List.cons_lt_cons_iff] at hlt
  have hname := kindName_eq_ok_iff.1 hkindName
  rw [Except.bind_eq_error_iff] at hfails
  rcases hfails with hfails | ⟨⟨⟩, htypes, hfails⟩
  · have hsorted : OptionalParameter.all.Pairwise fun parameter other => parameter.rank < other.rank := by decide
    obtain ⟨parameter, -, hbreaks, htyped⟩ := exists_breaks_of_typeRules hsorted hfails
    refine ⟨.typed parameter, hbreaks, ?_⟩
    intro earlier hlt rejection
    cases earlier with
    | kind => exact not_breaks_kind hname
    | typed other =>
        have hrank : other.rank < parameter.rank := by simpa [FieldRule.rank, List.cons_lt_cons_iff] using hlt
        exact not_breaks_typed (htyped other other.mem_all hrank)
    | registered | fits => simp [FieldRule.rank, List.cons_lt_cons_iff] at hlt
  have htyped : ∀ parameter : OptionalParameter, entry.Typed parameter.key parameter.type := by
    intro parameter
    refine typeRules_eq_ok_iff.1 htypes (parameter.key, parameter.type) ?_
    exact List.mem_map_of_mem (f := fun parameter : OptionalParameter => (parameter.key, parameter.type)) parameter.mem_all
  rw [Except.bind_eq_error_iff] at hfails
  rcases hfails with hfails | ⟨kind, hregistered, hfails⟩
  · refine ⟨.registered, breaks_of_registeredKind hname hfails, ?_⟩
    intro earlier hlt rejection
    cases earlier with
    | kind => exact not_breaks_kind hname
    | typed parameter => exact not_breaks_typed (htyped parameter)
    | registered | fits => simp [FieldRule.rank, List.cons_lt_cons_iff] at hlt
  have hkind := registeredKind_eq_ok_iff.1 hregistered
  refine ⟨.fits, breaks_of_kindRule hname hkind hfails, ?_⟩
  intro earlier hlt rejection
  cases earlier with
  | kind => exact not_breaks_kind hname
  | typed parameter => exact not_breaks_typed (htyped parameter)
  | registered => exact not_breaks_registered hname hkind
  | fits => exact absurd hlt (List.lt_irrefl _)

theorem not_breaks_of_sound (hsound : entry.Sound) (rule : FieldRule) (rejection : Rejection) :
    ¬ entry.Breaks rule rejection := by
  obtain ⟨name, kind, hname, hkind, hfits⟩ := hsound.kind
  cases rule with
  | kind => exact not_breaks_kind hname
  | typed parameter =>
      refine not_breaks_typed ?_
      cases parameter with
      | displayName => exact hsound.displayName
      | formHelpText => exact hsound.formHelpText
      | required => exact hsound.required
      | primaryKey => exact hsound.primaryKey
      | mainAttribute => exact hsound.mainAttribute
      | sortKey => exact hsound.sortKey
      | constraints => exact hsound.constraints
  | registered => exact not_breaks_registered hname hkind
  | fits => exact not_breaks_fits hname hkind hfits

end Document

end AddressBook
