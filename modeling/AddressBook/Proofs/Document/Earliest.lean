import AddressBook.Proofs.Document.FieldOrder
import Mathlib.Data.List.Basic
/-!
# The first broken rule is reported

The stages of the validation are walked through in their order. Where a stage fails, the rule that fails is broken, and
all rules before it are followed: those of earlier stages because these have passed, those of the same stage because
members and fields are looked at one after the other.
-/

namespace AddressBook.Document

variable {document : Json} {entries : List Entry} {entry : Entry} {fault : DocumentFault} {name : String}

/-! ### Members -/

theorem member_injective : Function.Injective Entry.member := by
  intro entry other heq
  obtain ⟨hname, hparams⟩ := Prod.mk.inj heq
  cases entry
  cases other
  simp_all

theorem entries_unique {others : List Entry} (hentries : document = .obj (entries.map Entry.member))
    (hothers : document = .obj (others.map Entry.member)) : others = entries :=
  member_injective.list_map (Json.obj.inj (hothers.symm.trans hentries))

theorem exists_of_entriesOf {members : Members} (hfails : entriesOf members = .error fault) :
    ∃ (before : List Entry) (name : String) (params : Json) (after : Members),
      members = before.map Entry.member ++ (name, params) :: after ∧
      (∀ entry ∈ before, entry.name ≠ "") ∧ Document.entry name params = .error fault := by
  induction members with
  | nil => cases hfails
  | cons member rest ih =>
      obtain ⟨name, params⟩ := member
      rw [entriesOf, Except.bind_eq_error_iff] at hfails
      rcases hfails with hfails | ⟨first, hfirst, hfails⟩
      · exact ⟨[], name, params, rest, rfl, List.forall_mem_nil _, hfails⟩
      · rw [Except.bind_eq_error_iff] at hfails
        rcases hfails with hfails | ⟨others, -, hfails⟩
        · obtain ⟨before, other, otherParams, after, rfl, hnamed, hother⟩ := ih hfails
          obtain ⟨hmember, hname⟩ := entry_eq_ok_iff.1 hfirst
          refine ⟨first :: before, other, otherParams, after, ?_, List.forall_mem_cons.2 ⟨?_, hnamed⟩, hother⟩
          · rw [hmember]
            rfl
          · have hsame : name = first.name := congrArg Prod.fst hmember
            exact hsame ▸ hname
        · cases hfails

/-- All rules of the stages before one are followed. -/
def FollowsBefore (document : Json) (stage : Nat) : Prop := ∀ rule : Rule, rule.stage < stage → Follows document rule

theorem follows_member {members : Members} {index : Nat} (hdocument : document = .obj members)
    (hmember : ∀ member, members[index]? = some member → ∃ entry : Entry, entry.name ≠ "" ∧ member = entry.member) :
    Follows document (.member index) := by
  intro rejection hbreaks
  cases hbreaks with
  | emptyName hown hempty =>
      obtain rfl := Json.obj.inj (hown.symm.trans hdocument)
      obtain ⟨entry, hname, heq⟩ := hmember _ hempty
      exact hname (congrArg Prod.fst heq).symm
  | notObject hown hother _ hparams =>
      obtain rfl := Json.obj.inj (hown.symm.trans hdocument)
      obtain ⟨entry, -, heq⟩ := hmember _ hother
      exact hparams _ (congrArg Prod.snd heq)

theorem breaks_of_entry {members : Members} {index : Nat} {params : Json} (hdocument : document = .obj members)
    (hmember : members[index]? = some (name, params)) (hfails : Document.entry name params = .error fault) :
    Breaks document (.member index) fault.report := by
  unfold Document.entry at hfails
  split at hfails
  · rename_i hempty
    subst hempty
    obtain rfl := Except.error.inj hfails
    exact .emptyName hdocument hmember
  · rename_i hname
    split at hfails
    · nomatch hfails
    · rename_i hother
      obtain rfl := Except.error.inj hfails
      exact .notObject hdocument hmember hname fun own heq => hother own heq

theorem follows_mapping {members : Members} (hdocument : document = .obj members) : Follows document .mapping := by
  intro rejection hbreaks
  cases hbreaks with
  | notMapping hother => exact hother members hdocument

theorem exists_breaks_of_entries (hfails : Document.entries document = .error fault) :
    ∃ rule, Breaks document rule fault.report ∧
      ∀ earlier : Rule, earlier.rank < rule.rank → Follows document earlier := by
  cases document with
  | obj members =>
      obtain ⟨before, name, params, after, hmembers, hnamed, hentry⟩ := exists_of_entriesOf hfails
      have hmember : members[before.length]? = some (name, params) := by
        rw [hmembers, List.getElem?_append_right (by simp)]
        simp
      refine ⟨.member before.length, breaks_of_entry rfl hmember hentry, ?_⟩
      intro earlier hlt
      cases earlier with
      | mapping => exact follows_mapping rfl
      | member index =>
          have hindex : index < before.length := by
            simpa [Rule.rank, Rule.stage, Rule.placeInStage, List.cons_lt_cons_iff] using hlt
          refine follows_member rfl fun member hsome => ?_
          rw [hmembers, List.getElem?_append_left (by simpa using hindex), List.getElem?_map, Option.map_eq_some_iff] at hsome
          obtain ⟨entry, hentry, rfl⟩ := hsome
          exact ⟨entry, hnamed entry (List.mem_of_getElem? hentry), rfl⟩
      | _ => simp [Rule.rank, Rule.stage, List.cons_lt_cons_iff] at hlt
  | _ =>
      obtain rfl := Except.error.inj hfails
      refine ⟨.mapping, .notMapping nofun, ?_⟩
      intro earlier hlt
      cases earlier <;> simp [Rule.rank, Rule.stage, Rule.placeInStage, List.cons_lt_cons_iff] at hlt

/-! ### The primary key -/

theorem primaryKeys_eq_holders (entries : List Entry) :
    primaryKeys entries = holders Parameter.primaryKey (.bool true) entries := by
  refine List.filter_congr fun entry _ => ?_
  rw [Bool.eq_iff_iff, isTrue_iff, has_iff, decide_eq_true_eq]

/-! ### Groups of values -/

/-- The values of the first fields come first among the groups. -/
theorem values_groups_prefix (key : String) (front back : List Entry) :
    (groups key front).map Group.value <+: (groups key (front ++ back)).map Group.value := by
  induction back using List.reverseRecOn with
  | nil => exact (List.append_nil front).symm ▸ List.prefix_rfl
  | append_singleton back entry ih =>
      rw [← List.append_assoc, groups_append_singleton]
      split
      · exact ih
      · rw [values_addToGroup]
        split
        · exact ih
        · exact ih.trans (List.prefix_append _ _)

/-- The first group with more than one name is that of the first value that fields share. -/
theorem sharedFirst_of_find? {key : String} {group : Group}
    (hfind : (groups key entries).find? (1 < ·.names.length) = some group) : SharedFirst key entries group.value := by
  obtain ⟨hnames, earlier, later, hgroups, hfew⟩ := List.find?_eq_some_iff_append.1 hfind
  have hgroup : group ∈ groups key entries := List.mem_of_find?_eq_some hfind
  have hlength : group.names.length = (holders key group.value entries).length := by
    rw [names_of_mem_groups hgroup, List.length_map]
  refine ⟨by simpa [hlength] using hnames, ?_⟩
  -- the first field with the value: the groups of the fields before it all stand before the group
  have hsome : ((entries.find? fun entry => param? entry.params key = some group.value)).isSome := by
    obtain ⟨entry, hentry, hvalue⟩ := value_mem_groups_iff.1 (List.mem_map_of_mem hgroup)
    exact List.find?_isSome.2 ⟨entry, hentry, decide_eq_true hvalue⟩
  obtain ⟨entry, hfirst⟩ := Option.isSome_iff_exists.1 hsome
  obtain ⟨hvalue, before, after, hentries, hothers⟩ := List.find?_eq_some_iff_append.1 hfirst
  refine ⟨before, entry, after, hentries, has_iff.2 (of_decide_eq_true hvalue), ?_⟩
  intro other hother own hown
  have hprefix := values_groups_prefix key before (entry :: after)
  rw [← hentries, hgroups, List.map_append, List.map_cons] at hprefix
  have hnew : group.value ∉ (groups key before).map Group.value := by
    rw [value_mem_groups_iff]
    rintro ⟨holder, hholder, hsame⟩
    simpa [hsame] using hothers holder hholder
  have hown : own ∈ earlier.map Group.value := by
    have hmem : own ∈ (groups key before).map Group.value := value_mem_groups_iff.2 ⟨other, hother, has_iff.1 hown⟩
    rcases List.prefix_or_prefix_of_prefix hprefix (List.prefix_append _ _) with hshort | ⟨rest, hlong⟩
    · exact hshort.subset hmem
    · -- a longer start of the groups would contain the group itself
      cases rest with
      | nil =>
          rw [List.append_nil] at hlong
          exact hlong ▸ hmem
      | cons next rest =>
          rw [← hlong, List.prefix_append_right_inj, List.cons_prefix_cons] at hprefix
          refine absurd ?_ hnew
          rw [← hlong, hprefix.1]
          exact List.mem_append_right _ List.mem_cons_self
  obtain ⟨own, hearlier, rfl⟩ := List.mem_map.1 hown
  have hmem : own ∈ groups key entries := by
    rw [hgroups]
    exact List.mem_append_left _ hearlier
  have hone : own.names.length = (holders key own.value entries).length := by
    rw [names_of_mem_groups hmem, List.length_map]
  rw [← hone]
  simpa using hfew own hearlier

theorem sharedFirst_of_distinctRule {key : String} (hfails : distinctRule key entries = .error fault) :
    ∃ value, SharedFirst key entries value ∧
      fault = .sharedValue ((holders key value entries).map Entry.name) key value := by
  unfold distinctRule at hfails
  split at hfails
  · nomatch hfails
  · rename_i group hfind
    obtain rfl := Except.error.inj hfails
    have hgroup : group ∈ groups key entries := List.mem_of_find?_eq_some hfind
    exact ⟨group.value, sharedFirst_of_find? hfind, by rw [names_of_mem_groups hgroup]⟩

section Entries

variable (hentries : document = .obj (entries.map Entry.member))

include hentries

theorem follows_keyCount {key : Entry} (hkey : holders Parameter.primaryKey (.bool true) entries = [key]) :
    Follows document .keyCount := by
  intro rejection hbreaks
  cases hbreaks with
  | noKey hown hnone =>
      rw [entries_unique hentries hown, hkey] at hnone
      nomatch hnone
  | manyKeys hown hkeys hmany =>
      rw [entries_unique hentries hown, hkey] at hkeys
      rw [← hkeys] at hmany
      exact absurd hmany (by simp)

theorem follows_keyRequired {key : Entry} (hkey : holders Parameter.primaryKey (.bool true) entries = [key])
    (hrequired : key.IsRequired) : Follows document .keyRequired := by
  intro rejection hbreaks
  cases hbreaks with
  | keyNotRequired hown hother hfails =>
      rw [entries_unique hentries hown, hkey] at hother
      exact hfails (List.singleton_inj.1 hother ▸ hrequired)

theorem exists_breaks_of_primaryKeyRule (hbefore : FollowsBefore document 2)
    (hfails : primaryKeyRule entries = .error fault) :
    ∃ rule, Breaks document rule fault.report ∧
      ∀ earlier : Rule, earlier.rank < rule.rank → Follows document earlier := by
  rw [primaryKeyRule, primaryKeys_eq_holders] at hfails
  have hcount : ∀ earlier : Rule, earlier.rank < Rule.keyCount.rank → Follows document earlier := by
    intro earlier hlt
    refine hbefore earlier ?_
    simpa [Rule.rank, Rule.stage, Rule.placeInStage, List.cons_lt_cons_iff] using hlt
  split at hfails
  · rename_i hkeys
    obtain rfl := Except.error.inj hfails
    exact ⟨.keyCount, .noKey hentries hkeys, hcount⟩
  · rename_i key hkeys
    split at hfails
    · cases hfails
    · rename_i hrequired
      obtain rfl := Except.error.inj hfails
      refine ⟨.keyRequired, .keyNotRequired hentries hkeys fun hown => hrequired (isTrue_iff.2 hown), ?_⟩
      intro earlier hlt
      have hstage : earlier.stage < 3 := by
        simpa [Rule.rank, Rule.stage, Rule.placeInStage, List.cons_lt_cons_iff] using hlt
      by_cases hearly : earlier.stage < 2
      · exact hbefore earlier hearly
      · cases earlier with
        | keyCount => exact follows_keyCount hentries hkeys
        | _ => simp [Rule.stage] at hstage hearly
  · rename_i hnone hseveral
    obtain rfl := Except.error.inj hfails
    refine ⟨.keyCount, .manyKeys hentries rfl ?_, hcount⟩
    cases hkeys : holders Parameter.primaryKey (.bool true) entries with
    | nil => exact absurd hkeys hnone
    | cons key others =>
        cases others with
        | nil => exact absurd hkeys (hseveral key)
        | cons => simp

/-! ### Fields -/

theorem follows_field {index : Nat} {rule : FieldRule}
    (hfield : ∀ entry, entries[index]? = some entry → ∀ rejection, ¬ entry.Breaks rule rejection) :
    Follows document (.field index rule) := by
  intro rejection hbreaks
  cases hbreaks with
  | field hown hentry hfails =>
      rw [entries_unique hentries hown] at hentry
      exact hfield _ hentry rejection hfails

theorem exists_breaks_of_fields (hbefore : FollowsBefore document 4) (hfails : forEach fieldRules entries = .error fault) :
    ∃ rule, Breaks document rule fault.report ∧
      ∀ earlier : Rule, earlier.rank < rule.rank → Follows document earlier := by
  obtain ⟨before, entry, after, hsplit, hpass, hfails⟩ :=
    Except.forM_eq_error_iff.1 ((forEach_eq_forM fieldRules entries).symm.trans hfails)
  obtain ⟨rule, hbreaks, hfirst⟩ := exists_breaks_of_fieldRules hfails
  have hentry : entries[before.length]? = some entry := by
    rw [hsplit, List.getElem?_append_right (Nat.le_refl _), Nat.sub_self, List.getElem?_cons_zero]
  refine ⟨.field before.length rule, .field hentries hentry hbreaks, ?_⟩
  intro earlier hlt
  by_cases hearly : earlier.stage < 4
  · exact hbefore earlier hearly
  cases earlier with
  | field index other =>
      have hplace : index < before.length ∨ index = before.length ∧ other.rank < rule.rank := by
        simpa [Rule.rank, Rule.stage, Rule.placeInStage, List.cons_lt_cons_iff] using hlt
      refine follows_field hentries fun own hown => ?_
      rcases hplace with hindex | ⟨rfl, hrank⟩
      · rw [hsplit, List.getElem?_append_left hindex] at hown
        exact not_breaks_of_sound (fieldRules_eq_ok_iff.1 (hpass own (List.mem_of_getElem? hown))) other
      · obtain rfl := Option.some.inj (hentry.symm.trans hown)
        exact hfirst other hrank
  | sortKeys | mainAttributes => simp [Rule.rank, Rule.stage, List.cons_lt_cons_iff] at hlt
  | _ => simp [Rule.stage] at hearly

/-! ### Shared values -/

theorem follows_sortKeys (hpasses : distinctRule Parameter.sortKey entries = .ok ()) : Follows document .sortKeys := by
  intro rejection hbreaks
  cases hbreaks with
  | sortKeys hown hshared =>
      rw [entries_unique hentries hown] at hshared
      have hfew := holders_length_le_one_iff.2 (distinctRule_eq_ok_iff.1 hpasses)
      exact absurd hshared.shared (Nat.not_lt.2 (hfew _))

theorem follows_mainAttributes (hpasses : distinctRule Parameter.mainAttribute entries = .ok ()) :
    Follows document .mainAttributes := by
  intro rejection hbreaks
  cases hbreaks with
  | mainAttributes hown hshared =>
      rw [entries_unique hentries hown] at hshared
      have hfew := holders_length_le_one_iff.2 (distinctRule_eq_ok_iff.1 hpasses)
      exact absurd hshared.shared (Nat.not_lt.2 (hfew _))

theorem exists_breaks_of_sortKeys (hbefore : FollowsBefore document 5)
    (hfails : distinctRule Parameter.sortKey entries = .error fault) :
    ∃ rule, Breaks document rule fault.report ∧
      ∀ earlier : Rule, earlier.rank < rule.rank → Follows document earlier := by
  obtain ⟨value, hshared, rfl⟩ := sharedFirst_of_distinctRule hfails
  refine ⟨.sortKeys, .sortKeys hentries hshared, ?_⟩
  intro earlier hlt
  refine hbefore earlier ?_
  simpa [Rule.rank, Rule.stage, Rule.placeInStage, List.cons_lt_cons_iff] using hlt

theorem exists_breaks_of_mainAttributes (hbefore : FollowsBefore document 6)
    (hfails : distinctRule Parameter.mainAttribute entries = .error fault) :
    ∃ rule, Breaks document rule fault.report ∧
      ∀ earlier : Rule, earlier.rank < rule.rank → Follows document earlier := by
  obtain ⟨value, hshared, rfl⟩ := sharedFirst_of_distinctRule hfails
  refine ⟨.mainAttributes, .mainAttributes hentries hshared, ?_⟩
  intro earlier hlt
  refine hbefore earlier ?_
  simpa [Rule.rank, Rule.stage, Rule.placeInStage, List.cons_lt_cons_iff] using hlt

end Entries

/-! ### The stages -/

theorem followsBefore_two (hentries : Document.entries document = .ok entries) : FollowsBefore document 2 := by
  obtain ⟨hdocument, hnamed⟩ := entries_eq_ok_iff.1 hentries
  intro rule hstage
  cases rule with
  | mapping => exact follows_mapping hdocument
  | member index =>
      refine follows_member hdocument fun member hmember => ?_
      obtain ⟨entry, hentry, rfl⟩ := List.mem_map.1 (List.mem_of_getElem? hmember)
      exact ⟨entry, hnamed entry hentry, rfl⟩
  | _ => simp [Rule.stage] at hstage

theorem followsBefore_four (hentries : document = .obj (entries.map Entry.member)) (hbefore : FollowsBefore document 2)
    (hpasses : primaryKeyRule entries = .ok ()) : FollowsBefore document 4 := by
  obtain ⟨key, hkeys, hrequired⟩ := hasPrimaryKey_iff.1 (primaryKeyRule_eq_ok_iff.1 hpasses)
  rw [primaryKeys_eq_holders] at hkeys
  intro rule hstage
  cases rule with
  | mapping => exact hbefore _ (by decide)
  | member index => exact hbefore _ (by simp [Rule.stage])
  | keyCount => exact follows_keyCount hentries hkeys
  | keyRequired => exact follows_keyRequired hentries hkeys hrequired
  | _ => simp [Rule.stage] at hstage

theorem followsBefore_five (hentries : document = .obj (entries.map Entry.member)) (hbefore : FollowsBefore document 4)
    (hsound : ∀ entry ∈ entries, entry.Sound) : FollowsBefore document 5 := by
  intro rule hstage
  by_cases hearly : rule.stage < 4
  · exact hbefore rule hearly
  cases rule with
  | field index rule =>
      exact follows_field hentries fun entry hentry => not_breaks_of_sound (hsound entry (List.mem_of_getElem? hentry)) rule
  | sortKeys | mainAttributes => simp [Rule.stage] at hstage
  | _ => simp [Rule.stage] at hearly

theorem followsBefore_six (hentries : document = .obj (entries.map Entry.member)) (hbefore : FollowsBefore document 5)
    (hpasses : distinctRule Parameter.sortKey entries = .ok ()) : FollowsBefore document 6 := by
  intro rule hstage
  by_cases hearly : rule.stage < 5
  · exact hbefore rule hearly
  cases rule with
  | sortKeys => exact follows_sortKeys hentries hpasses
  | mainAttributes => simp [Rule.stage] at hstage
  | _ => simp [Rule.stage] at hearly

theorem follows_of_validate (hvalid : validate document = .ok ()) (rule : Rule) : Follows document rule := by
  obtain ⟨all, hentries⟩ := exists_entries_of_validate hvalid
  have hsound := (validate_eq_ok_iff_of_entries hentries).1 hvalid
  have hdocument := (entries_eq_ok_iff.1 hentries).1
  have hkey := followsBefore_four hdocument (followsBefore_two hentries) (primaryKeyRule_eq_ok_iff.2 hsound.primaryKey)
  have hfields := followsBefore_five hdocument hkey hsound.fields
  have hsort := followsBefore_six hdocument hfields
    ((distinctRule_eq_ok_iff_of_typed fun entry hmem => (hsound.fields entry hmem).sortKey).2 hsound.sortKeys)
  cases rule with
  | mainAttributes =>
      refine follows_mainAttributes hdocument ?_
      exact (distinctRule_eq_ok_iff_of_typed fun entry hmem => (hsound.fields entry hmem).mainAttribute).2
        hsound.mainAttributes
  | _ => exact hsort _ (by simp [Rule.stage])

theorem exists_breaks_of_validate (hrejected : validate document = .error fault) :
    ∃ rule, Breaks document rule fault.report ∧
      ∀ earlier : Rule, earlier.rank < rule.rank → Follows document earlier := by
  rw [validate, Except.bind_eq_error_iff] at hrejected
  rcases hrejected with hfails | ⟨all, hentries, hrejected⟩
  · exact exists_breaks_of_entries hfails
  have hdocument := (entries_eq_ok_iff.1 hentries).1
  have hshape := followsBefore_two hentries
  rw [Except.bind_eq_error_iff] at hrejected
  rcases hrejected with hfails | ⟨⟨⟩, hpasses, hrejected⟩
  · exact exists_breaks_of_primaryKeyRule hdocument hshape hfails
  have hkey := followsBefore_four hdocument hshape hpasses
  rw [Except.bind_eq_error_iff] at hrejected
  rcases hrejected with hfails | ⟨⟨⟩, hpasses, hrejected⟩
  · exact exists_breaks_of_fields hdocument hkey hfails
  have hsound : ∀ entry ∈ all, entry.Sound := fun entry hmem => fieldRules_eq_ok_iff.1 (forEach_eq_ok_iff.1 hpasses entry hmem)
  have hfields := followsBefore_five hdocument hkey hsound
  -- the texts have been looked at field by field, so their rule does not fail here
  rw [textRules_eq_ok_of_sound hsound] at hrejected
  change (distinctRule Parameter.sortKey all >>= _) = _ at hrejected
  rw [Except.bind_eq_error_iff] at hrejected
  rcases hrejected with hfails | ⟨⟨⟩, hpasses, hfails⟩
  · exact exists_breaks_of_sortKeys hdocument hfields hfails
  · exact exists_breaks_of_mainAttributes hdocument (followsBefore_six hdocument hfields hpasses) hfails

theorem name_mem_keys_of_breaks {rule : Rule} {rejection : Rejection} (hbreaks : Breaks document rule rejection)
    (hname : name ∈ rejection.field.toList) (hnonempty : name ≠ "") :
    ∃ members, document = .obj members ∧ name ∈ Assoc.keys members := by
  have hentry : ∀ {entries : List Entry} {entry : Entry}, document = .obj (entries.map Entry.member) → entry ∈ entries →
      ∃ members, document = .obj members ∧ entry.name ∈ Assoc.keys members :=
    fun hdocument hmem => ⟨_, hdocument, List.mem_map_of_mem (List.mem_map_of_mem hmem)⟩
  have hholder : ∀ {entries : List Entry} {key : String} {value : Json},
      document = .obj (entries.map Entry.member) → name ∈ (holders key value entries).map Entry.name →
      ∃ members, document = .obj members ∧ name ∈ Assoc.keys members := by
    intro entries key value hdocument hmem
    obtain ⟨entry, hholds, rfl⟩ := List.mem_map.1 hmem
    exact hentry hdocument (List.mem_of_mem_filter hholds)
  cases hbreaks with
  | notMapping | emptyName | noKey => exact absurd (List.mem_singleton.1 hname) hnonempty
  | notObject hdocument hmember =>
      obtain rfl := List.mem_singleton.1 hname
      exact ⟨_, hdocument, List.mem_map_of_mem (List.mem_of_getElem? hmember)⟩
  | manyKeys hdocument hkeys => exact hholder hdocument (hkeys ▸ hname)
  | @keyNotRequired entries key hdocument hkeys =>
      obtain rfl := List.mem_singleton.1 hname
      have hmem : key ∈ holders Parameter.primaryKey (.bool true) entries := hkeys ▸ List.mem_singleton_self key
      exact hentry hdocument (List.mem_of_mem_filter hmem)
  | @field entries index entry rule rejection hdocument hown hbreaks =>
      have hfield : rejection.field = .one entry.name := by
        cases hbreaks with
        | unfit _ _ _ hunfit => cases hunfit <;> rfl
        | _ => rfl
      rw [hfield] at hname
      obtain rfl := List.mem_singleton.1 hname
      exact hentry hdocument (List.mem_of_getElem? hown)
  | sortKeys hdocument | mainAttributes hdocument => exact hholder hdocument hname

/-- A document is refused exactly if it breaks a rule, and the earliest broken rule is reported. -/
theorem earliest_broken_rule_reported (document : Json) :
    (validate document = .ok () ↔ ∀ rule, Follows document rule) ∧
      ∀ fault, validate document = .error fault →
        (∃ rule, Breaks document rule fault.report ∧
          ∀ earlier : Rule, earlier.rank < rule.rank → Follows document earlier) ∧
        ∀ name ∈ fault.report.field.toList, name ≠ "" →
          ∃ members, document = .obj members ∧ name ∈ Assoc.keys members := by
  refine ⟨⟨follows_of_validate, fun hfollows => ?_⟩, fun fault hrejected => ?_⟩
  · match hresult : validate document with
    | .ok () => rfl
    | .error fault =>
        obtain ⟨rule, hbreaks, -⟩ := exists_breaks_of_validate hresult
        exact absurd hbreaks (hfollows rule fault.report)
  · obtain ⟨rule, hbreaks, hearlier⟩ := exists_breaks_of_validate hrejected
    exact ⟨⟨rule, hbreaks, hearlier⟩, fun name => name_mem_keys_of_breaks hbreaks⟩

/-- Two pairs of fields share a sort key, one pair around the other, and two fields share a main attribute. -/
def crossedDocument : Json :=
  .obj [
    ("id", .obj [("type", .str "string"), ("primary_key", .bool true), ("required", .bool true)]),
    ("street", .obj [("type", .str "string"), ("sort_key", .int 2), ("main_attribute", .int 1)]),
    ("city", .obj [("type", .str "string"), ("sort_key", .int 1), ("main_attribute", .int 1)]),
    ("region", .obj [("type", .str "string"), ("sort_key", .int 1)]),
    ("country", .obj [("type", .str "string"), ("sort_key", .int 2)])]

theorem earliest_broken_rule_reported_crossed :
    validate crossedDocument = .error (.sharedValue ["street", "country"] "sort_key" (.int 2)) ∧
      (∃ rule, Breaks crossedDocument rule
          { field := .many ["street", "country"], param := .one "sort_key"
            message := "Fields street, country share the same 'sort_key' value 2" } ∧
        ∀ earlier : Rule, earlier.rank < rule.rank → Follows crossedDocument earlier) ∧
      ∃ members, crossedDocument = .obj members ∧ "country" ∈ Assoc.keys members := by
  have hrejected : validate crossedDocument = .error (.sharedValue ["street", "country"] "sort_key" (.int 2)) := rfl
  obtain ⟨hrule, hnames⟩ := (earliest_broken_rule_reported crossedDocument).2 _ hrejected
  exact ⟨hrejected, hrule, hnames "country" (by decide) (by decide)⟩

end AddressBook.Document
