import AddressBook.Proofs.Document.Validation
/-!
# A rule that never decides

The rule for texts comes after the rules for fields, and these have asked for the same texts. So it refuses no document,
and validation without it is the same function. The rules for shared values come last, when every sort key and every main
attribute is known to be a whole number: no value of another type is ever compared, and no comparison of values could
answer differently there than the comparison of the numbers.
-/

namespace AddressBook.Document

variable {key : String} {entries before : List Entry} {entry : Entry} {value a b : Json} {same : Json → Json → Bool}
  {document : Json} {fault : DocumentFault}

/-! ### Validation without the rule for texts -/

/-- Validates a schema document, but for the texts on their own. -/
def validateWithoutTexts (document : Json) : Except DocumentFault Unit := do
  let entries ← Document.entries document
  primaryKeyRule entries
  forEach fieldRules entries
  distinctRule Parameter.sortKey entries
  distinctRule Parameter.mainAttribute entries

theorem textRules_eq_ok (hfields : ∀ entry ∈ entries, fieldRules entry = .ok ()) : textRules entries = .ok () :=
  textRules_eq_ok_of_sound fun entry hmem => fieldRules_eq_ok_iff.1 (hfields entry hmem)

theorem fieldRules_then_textRules (entries : List Entry) (next : Except DocumentFault Unit) :
    (do forEach fieldRules entries; textRules entries; next) = (do forEach fieldRules entries; next) := by
  cases hfields : forEach fieldRules entries with
  | error fault => rfl
  | ok =>
      show (textRules entries >>= fun _ => next) = next
      rw [textRules_eq_ok (forEach_eq_ok_iff.1 hfields)]
      rfl

theorem validateWithoutTexts_eq (document : Json) : validateWithoutTexts document = validate document := by
  unfold validateWithoutTexts validate
  apply congrArg
  funext entries
  apply congrArg
  funext _
  exact (fieldRules_then_textRules entries _).symm

/-- A document is refused for its shape, its primary key, a field or a shared value. -/
theorem cases_of_validate_eq_error (hrejected : validate document = .error fault) :
    Document.entries document = .error fault ∨ ∃ entries, Document.entries document = .ok entries ∧
      (primaryKeyRule entries = .error fault ∨ forEach fieldRules entries = .error fault ∨
        distinctRule Parameter.sortKey entries = .error fault ∨
        distinctRule Parameter.mainAttribute entries = .error fault) := by
  rw [← validateWithoutTexts_eq, validateWithoutTexts, Except.bind_eq_error_iff] at hrejected
  rcases hrejected with hshape | ⟨entries, hentries, hrejected⟩
  · exact .inl hshape
  · refine .inr ⟨entries, hentries, ?_⟩
    rcases Except.bind_eq_error_iff.1 hrejected with hkey | ⟨_, -, hrejected⟩
    · exact .inl hkey
    rcases Except.bind_eq_error_iff.1 hrejected with hfields | ⟨_, -, hrejected⟩
    · exact .inr (.inl hfields)
    rcases Except.bind_eq_error_iff.1 hrejected with hsort | ⟨_, -, hmain⟩
    · exact .inr (.inr (.inl hsort))
    · exact .inr (.inr (.inr hmain))

/-! ### Comparisons of values -/

/-- Collecting compares the value of a group with that of an entry: the group has been made for the entries before it, and
the groups in front of it have other values. -/
inductive Compares (key : String) (entries : List Entry) : Json → Json → Prop
  | values {before after : List Entry} {entry : Entry} {value : Json} {front back : List Group} {group : Group}
      (hentries : entries = before ++ entry :: after) (hvalue : param? entry.params key = some value)
      (hgroups : groups key before = front ++ group :: back) (hfront : ∀ other ∈ front, other.value ≠ value) :
      Compares key entries group.value value

/-- Adds a name to the first group whose value is the same by a comparison. -/
def addToGroupBy (same : Json → Json → Bool) (value : Json) (name : String) : List Group → List Group
  | [] => [{ value, names := [name] }]
  | group :: rest =>
      if same group.value value then { group with names := group.names ++ [name] } :: rest
      else group :: addToGroupBy same value name rest

def groupsBy (same : Json → Json → Bool) (key : String) (entries : List Entry) : List Group :=
  entries.foldl (fun groups entry =>
    match param? entry.params key with
    | none => groups
    | some value => addToGroupBy same value entry.name groups) []

/-- No two fields share a value of the parameter by a comparison. -/
def distinctRuleBy (same : Json → Json → Bool) (key : String) (entries : List Entry) : Except DocumentFault Unit :=
  match (groupsBy same key entries).find? (1 < ·.names.length) with
  | none => .ok ()
  | some group => .error (.sharedValue group.names key group.value)

theorem groupsBy_append_singleton (same : Json → Json → Bool) (key : String) (entries : List Entry) (entry : Entry) :
    groupsBy same key (entries ++ [entry]) =
      match param? entry.params key with
      | none => groupsBy same key entries
      | some value => addToGroupBy same value entry.name (groupsBy same key entries) := by
  rw [groupsBy, List.foldl_append]
  rfl

theorem addToGroupBy_congr {all : List Group} {name : String}
    (hsame : ∀ front group back, all = front ++ group :: back → (∀ other ∈ front, other.value ≠ value) →
      (same group.value value = true ↔ group.value = value)) :
    addToGroupBy same value name all = addToGroup value name all := by
  induction all with
  | nil => rfl
  | cons group rest ih =>
      have hfirst := hsame [] group rest rfl (List.forall_mem_nil _)
      rw [addToGroupBy, addToGroup]
      by_cases hvalue : group.value = value
      · rw [if_pos (hfirst.2 hvalue), if_pos hvalue]
      · rw [if_neg fun hother => hvalue (hfirst.1 hother), if_neg hvalue]
        apply congrArg (group :: ·)
        apply ih
        intro front other back hrest hfront
        apply hsame (group :: front) other back
        · rw [hrest, List.cons_append]
        · exact List.forall_mem_cons.2 ⟨hvalue, hfront⟩

theorem Compares.append (hcompares : Compares key before a b) (after : List Entry) : Compares key (before ++ after) a b := by
  cases hcompares with
  | @values front rest entry value _ _ group hentries hvalue hgroups hfront =>
      have hlonger : before ++ after = front ++ entry :: (rest ++ after) := by
        rw [hentries, List.append_assoc, List.cons_append]
      exact .values hlonger hvalue hgroups hfront

/-- The groups depend on the comparisons that are made, and on no others. -/
theorem groupsBy_congr (hsame : ∀ a b, Compares key entries a b → (same a b = true ↔ a = b)) :
    groupsBy same key entries = groups key entries := by
  induction entries using List.reverseRecOn with
  | nil => rfl
  | append_singleton entries entry ih =>
      have hbefore : groupsBy same key entries = groups key entries :=
        ih fun a b hcompares => hsame a b (hcompares.append [entry])
      rw [groupsBy_append_singleton, groups_append_singleton, hbefore]
      cases hvalue : param? entry.params key with
      | none => rfl
      | some value =>
          apply addToGroupBy_congr
          intro front group back hgroups hfront
          exact hsame _ _ (.values rfl hvalue hgroups hfront)

theorem distinctRuleBy_congr (hsame : ∀ a b, Compares key entries a b → (same a b = true ↔ a = b)) :
    distinctRuleBy same key entries = distinctRule key entries := by
  rw [distinctRuleBy, groupsBy_congr hsame]
  rfl

theorem Compares.exists_numbers (hcompares : Compares key entries a b)
    (htyped : ∀ entry ∈ entries, entry.Typed key .integer) : ∃ m n : Int, a = .int m ∧ b = .int n := by
  have hnumber : ∀ entry ∈ entries, ∀ value, param? entry.params key = some value → ∃ n : Int, value = .int n := by
    intro entry hmem value hvalue
    cases htyped entry hmem value (has_iff.2 hvalue) with
    | integer n => exact ⟨n, rfl⟩
  cases hcompares with
  | @values before after entry value front back group hentries hvalue hgroups hfront =>
      have hgroup : group.value ∈ (groups key before).map Group.value := by
        rw [hgroups]
        exact List.mem_map_of_mem (List.mem_append_right _ List.mem_cons_self)
      obtain ⟨holder, hholder, hown⟩ := value_mem_groups_iff.1 hgroup
      obtain ⟨m, hm⟩ := hnumber holder (hentries ▸ List.mem_append_left _ hholder) _ hown
      obtain ⟨n, hn⟩ := hnumber entry (hentries ▸ List.mem_append_right _ List.mem_cons_self) _ hvalue
      exact ⟨m, n, hm, hn⟩

/-! ### What decides -/

theorem typed_of_fieldRules (hkey : key ∈ [Parameter.sortKey, Parameter.mainAttribute])
    (hfields : ∀ entry ∈ entries, fieldRules entry = .ok ()) : ∀ entry ∈ entries, entry.Typed key .integer := by
  intro entry hmem
  have hsound := fieldRules_eq_ok_iff.1 (hfields entry hmem)
  rcases List.mem_cons.1 hkey with rfl | hkey
  · exact hsound.sortKey
  · obtain rfl := List.mem_singleton.1 hkey
    exact hsound.mainAttribute

/-- The rule for texts refuses no document, and the rules for shared values compare whole numbers only. -/
theorem texts_never_decide :
    (∀ entries : List Entry, (∀ entry ∈ entries, fieldRules entry = .ok ()) →
      textRules entries = .ok () ∧
      ∀ key ∈ [Parameter.sortKey, Parameter.mainAttribute],
        (∀ a b, Compares key entries a b → ∃ m n : Int, a = .int m ∧ b = .int n ∧ (a = b ↔ m = n)) ∧
        ∀ same : Json → Json → Bool, (∀ m n : Int, same (.int m) (.int n) = true ↔ m = n) →
          distinctRuleBy same key entries = distinctRule key entries) ∧
    (∀ document fault, validate document = .error fault →
      Document.entries document = .error fault ∨ ∃ entries, Document.entries document = .ok entries ∧
        (primaryKeyRule entries = .error fault ∨ forEach fieldRules entries = .error fault ∨
          distinctRule Parameter.sortKey entries = .error fault ∨
          distinctRule Parameter.mainAttribute entries = .error fault)) ∧
    ∀ document, validateWithoutTexts document = validate document := by
  refine ⟨?_, fun document fault => cases_of_validate_eq_error, validateWithoutTexts_eq⟩
  intro entries hfields
  refine ⟨textRules_eq_ok hfields, ?_⟩
  intro key hkey
  have htyped := typed_of_fieldRules hkey hfields
  constructor
  · intro a b hcompares
    obtain ⟨m, n, rfl, rfl⟩ := hcompares.exists_numbers htyped
    exact ⟨m, n, rfl, rfl, by rw [Json.int.injEq]⟩
  · intro same hsame
    apply distinctRuleBy_congr
    intro a b hcompares
    obtain ⟨m, n, rfl, rfl⟩ := hcompares.exists_numbers htyped
    rw [hsame, Json.int.injEq]

/-- The first and the last entry share a sort key, and the one between them has another. -/
def numberedEntries : List Entry := [
  { name := "id"
    params := [("type", .str "str"), ("primary_key", .bool true), ("required", .bool true), ("sort_key", .int 2)] },
  { name := "name", params := [("type", .str "string"), ("display_name", .str "Name"), ("sort_key", .int 1)] },
  { name := "city"
    params := [("type", .str "str"), ("form_help_text", .str "Where"), ("sort_key", .int 2), ("main_attribute", .null)] }]

/-- Whether two values are the same whole number; other values are never told apart. -/
def sameNumber : Json → Json → Bool
  | .int m, .int n => m == n
  | _, _ => true

theorem texts_never_decide_numbered :
    (∀ entry ∈ numberedEntries, fieldRules entry = .ok ()) ∧ textRules numberedEntries = .ok () ∧
    Compares Parameter.sortKey numberedEntries (.int 2) (.int 2) ∧
    (∃ m n : Int, Json.int 2 = .int m ∧ Json.int 2 = .int n ∧ (Json.int 2 = Json.int 2 ↔ m = n)) ∧
    distinctRuleBy sameNumber Parameter.sortKey numberedEntries =
      .error (.sharedValue ["id", "city"] "sort_key" (.int 2)) ∧
    validate (.obj (numberedEntries.map Entry.member)) = .error (.sharedValue ["id", "city"] "sort_key" (.int 2)) ∧
    ∃ entries, Document.entries (.obj (numberedEntries.map Entry.member)) = .ok entries ∧
      distinctRule Parameter.sortKey entries = .error (.sharedValue ["id", "city"] "sort_key" (.int 2)) := by
  have hfields : ∀ entry ∈ numberedEntries, fieldRules entry = .ok () := by
    simp only [numberedEntries, List.forall_mem_cons]
    exact ⟨rfl, rfl, rfl, List.forall_mem_nil _⟩
  have hcompares : Compares Parameter.sortKey numberedEntries (.int 2) (.int 2) :=
    @Compares.values _ _ (numberedEntries.take 2) [] _ (.int 2) [] [⟨.int 1, ["name"]⟩] ⟨.int 2, ["id"]⟩ rfl rfl rfl
      (List.forall_mem_nil _)
  have hrejected : validate (.obj (numberedEntries.map Entry.member)) =
      .error (.sharedValue ["id", "city"] "sort_key" (.int 2)) := rfl
  obtain ⟨hpasses, hothers, -⟩ := texts_never_decide
  obtain ⟨htexts, hnumbers⟩ := hpasses numberedEntries hfields
  obtain ⟨hsort, hsame⟩ := hnumbers Parameter.sortKey List.mem_cons_self
  refine ⟨hfields, htexts, hcompares, hsort _ _ hcompares, ?_, hrejected, ?_⟩
  · exact (hsame sameNumber fun m n => beq_iff_eq).trans rfl
  · rcases hothers _ _ hrejected with hshape | ⟨entries, hentries, hrule⟩
    · nomatch hshape
    obtain rfl : numberedEntries = entries := Except.ok.inj hentries
    rcases hrule with hkey | hfails | hshared | hmain
    · nomatch hkey
    · nomatch hfails
    · exact ⟨_, rfl, hshared⟩
    · nomatch hmain

end AddressBook.Document
