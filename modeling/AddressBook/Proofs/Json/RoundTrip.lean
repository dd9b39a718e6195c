import AddressBook.Proofs.Json.Double
import AddressBook.Proofs.Json.Reader
import Mathlib.Data.List.DropRight
/-!
# Texts there and back

The compact text and the indented text of a value differ in blanks only, so both are cases of one text with blanks of
its own between the parts. A text is read back as its value, every double replaced by the one that its own text is read
as, if the value does not nest deeper than the reader goes. A value that does nest deeper is not read at all.
-/

namespace AddressBook.Json

open Number (Binary64)
open Text (Reader)

/-! ### Strings -/

/-- A control character without a letter of its own is read back from the number of its character. -/
theorem hexUnit?_unicodeEscape : ∀ n < 0x20,
    unicodeEscape (Char.ofNat n) = ['\\', 'u', '0', '0', Nat.digitChar (n / 16), Nat.digitChar (n % 16)] ∧
      hexUnit? '0' '0' (Nat.digitChar (n / 16)) (Nat.digitChar (n % 16)) = some n := by
  decide

theorem readStringRest_unicodeEscape {c : Char} (hc : c.toNat < 0x20) (cs : List Char) :
    readStringRest (unicodeEscape c ++ cs) = (readStringRest cs).map fun (s, rest) => (c :: s, rest) := by
  obtain ⟨htext, hunit⟩ := hexUnit?_unicodeEscape c.toNat hc
  have hhigh : isHighSurrogate c.toNat = false := by
    simp only [isHighSurrogate, Bool.and_eq_false_iff, decide_eq_false_iff_not]
    omega
  have hlow : isLowSurrogate c.toNat = false := by
    simp only [isLowSurrogate, Bool.and_eq_false_iff, decide_eq_false_iff_not]
    omega
  rw [Char.ofNat_toNat] at htext
  rw [htext]
  simp only [List.cons_append, List.nil_append, readStringRest, hunit, hhigh, hlow, Bool.false_eq_true, if_false,
    Char.ofNat_toNat]

theorem readStringRest_plain {c : Char} (hquote : c ≠ '"') (hslash : c ≠ '\\') (hc : ¬ c.toNat < 0x20)
    (cs : List Char) : readStringRest (c :: cs) = (readStringRest cs).map fun (s, rest) => (c :: s, rest) := by
  rw [readStringRest.eq_def]
  split
  · rename_i heq
    exact absurd (List.cons.inj heq).1 hquote
  · rename_i heq
    exact absurd (List.cons.inj heq).1 hslash
  · rename_i heq
    exact absurd (List.cons.inj heq).1 hslash
  · rename_i heq
    obtain ⟨rfl, rfl⟩ := List.cons.inj heq
    rw [if_neg (by simp [hslash, hc])]
  · rename_i heq
    exact absurd heq (by simp)

theorem readStringRest_escape (c : Char) (cs : List Char) :
    readStringRest (escape c ++ cs) = (readStringRest cs).map fun (s, rest) => (c :: s, rest) := by
  unfold escape
  split_ifs with hquote hslash hbackspace hfeed hline hreturn htab hcontrol
  · subst hquote
    rfl
  · subst hslash
    rfl
  · subst hbackspace
    rfl
  · subst hfeed
    rfl
  · subst hline
    rfl
  · subst hreturn
    rfl
  · subst htab
    rfl
  · exact readStringRest_unicodeEscape hcontrol cs
  · exact readStringRest_plain hquote hslash hcontrol cs

theorem readStringRest_flatMap_escape (cs rest : List Char) :
    readStringRest (cs.flatMap escape ++ '"' :: rest) = some (cs, rest) := by
  induction cs with
  | nil => rfl
  | cons c cs ih =>
      rw [List.flatMap_cons, List.append_assoc, readStringRest_escape, ih]
      rfl

theorem readString_quoted (s : String) (rest : List Char) : readString (quoted s ++ rest) = some (s, rest) := by
  have htext : quoted s ++ rest = '"' :: (s.toList.flatMap escape ++ '"' :: rest) := by simp [quoted]
  rw [htext, readString, readStringRest_flatMap_escape]
  simp

/-! ### Blanks -/

def AllBlank (gap : List Char) : Prop := ∀ c ∈ gap, isBlank c = true

theorem skipBlanks_append {gap : List Char} (hgap : AllBlank gap) (cs : List Char) :
    skipBlanks (gap ++ cs) = skipBlanks cs := by
  rw [skipBlanks, List.dropWhile_append_of_pos hgap]
  rfl

theorem skipBlanks_cons {c : Char} (hc : isBlank c = false) (cs : List Char) : skipBlanks (c :: cs) = c :: cs := by
  rw [skipBlanks, List.dropWhile_cons_of_neg (by simp [hc])]

theorem skipBlanks_skipBlanks (cs : List Char) : skipBlanks (skipBlanks cs) = skipBlanks cs :=
  List.dropWhile_idempotent isBlank cs

theorem skipBlanks_of_readValue {d : Nat} {cs : List Char} {r : Json × List Char} (hread : readValue d cs = some r) :
    skipBlanks cs = cs := by
  obtain ⟨c, tail, rfl, hstart⟩ := exists_startsValue_of_readValue hread
  simp only [startsValue, Bool.not_eq_true', Bool.or_eq_false_iff] at hstart
  exact skipBlanks_cons hstart.1.1.1 tail

theorem continuesNumber_of_isBlank {c : Char} (hc : isBlank c = true) : continuesNumber c = false := by
  simp only [isBlank, Bool.or_eq_true, beq_iff_eq] at hc
  rcases hc with ((rfl | rfl) | rfl) | rfl <;> decide

theorem stops_append {gap : List Char} (hgap : AllBlank gap) {c : Char} (hc : continuesNumber c = false)
    (rest : List Char) : Stops (gap ++ c :: rest) := by
  cases gap with
  | nil => exact stops_cons hc rest
  | cons blank gap => exact stops_cons (continuesNumber_of_isBlank (hgap blank List.mem_cons_self)) _

/-! ### Sequences -/

def joined : List (List Char) → List Char
  | [] => []
  | [text] => text
  | text :: rest => text ++ ',' :: joined rest

section Sequences

variable {α : Type} {element : Reader α} {close : Char}

/-- A text is read as an element, whatever stops it. -/
def ReadsElement (element : Reader α) (text : List Char) (value : α) : Prop :=
  ∀ rest, Stops rest → element (text ++ rest) = some (value, rest)

theorem readSequence_joined (hclose : close ≠ ',') (hblank : isBlank close = false)
    (hstop : continuesNumber close = false) {gap : List Char} (hgap : AllBlank gap) {texts : List (List Char)}
    {values : List α} (hreads : List.Forall₂ (ReadsElement element) texts values) (hne : texts ≠ [])
    (rest : List Char) {fuel : Nat} (hfuel : texts.length ≤ fuel) :
    readSequence element close fuel (joined texts ++ (gap ++ close :: rest)) = some (values, rest) := by
  induction hreads generalizing fuel with
  | nil => exact absurd rfl hne
  | @cons text value others values hfirst hothers ih =>
      obtain ⟨fuel, rfl⟩ := Nat.exists_eq_add_of_lt (Nat.lt_of_lt_of_le (Nat.succ_pos _) hfuel)
      rw [Nat.zero_add, readSequence_succ_eq_some_iff hclose]
      cases others with
      | nil =>
          cases hothers
          refine ⟨value, gap ++ close :: rest, hfirst _ (stops_append hgap hstop rest), .inr ⟨?_, rfl⟩⟩
          rw [skipBlanks_append hgap, skipBlanks_cons hblank]
      | cons next others =>
          have hlength : (next :: others).length ≤ fuel := by
            simp only [List.length_cons] at hfuel ⊢
            omega
          have hread := ih (by simp) hlength
          refine ⟨value, ',' :: (joined (next :: others) ++ (gap ++ close :: rest)), ?_, .inl ⟨_, values, ?_, hread, rfl⟩⟩
          · rw [joined, List.append_assoc, List.cons_append]
            · exact hfirst _ (stops_cons (by decide) _)
            · simp
          · rw [skipBlanks_cons (by decide)]

/-- There is a comma after every text but the last, and the closing character after that. -/
theorem length_le_length_skipBlanks (hblank : isBlank close = false) (gap rest : List Char) (texts : List (List Char)) :
    texts.length ≤ (skipBlanks (joined texts ++ (gap ++ close :: rest))).length := by
  have hcount : ∀ cs, (skipBlanks cs).countP (fun c => !isBlank c) = cs.countP fun c => !isBlank c := by
    intro cs
    induction cs with
    | nil => rfl
    | cons c cs ih =>
        cases hc : isBlank c with
        | true =>
            rw [show skipBlanks (c :: cs) = skipBlanks cs from List.dropWhile_cons_of_pos hc, ih]
            simp [hc]
        | false => rw [skipBlanks_cons hc]
  have htexts : texts.length ≤ (joined texts ++ (gap ++ close :: rest)).countP fun c => !isBlank c := by
    induction texts with
    | nil => exact Nat.zero_le _
    | cons text others ih =>
        cases others with
        | nil =>
            simp only [joined, List.countP_append, List.countP_cons, hblank, List.length_cons, List.length_nil]
            simp
            omega
        | cons next others =>
            rw [joined, List.append_assoc, List.cons_append, List.countP_append, List.countP_cons]
            · simp only [List.length_cons] at ih ⊢
              have hcomma : (!isBlank ',') = true := by decide
              rw [if_pos hcomma]
              omega
            · simp
  rw [← hcount] at htexts
  exact Nat.le_trans htexts List.countP_le_length

/-- A reader of elements that skips the blanks before one, and reads no closing character as one. -/
structure SkipsBlanks (element : Reader α) (close : Char) : Prop where
  skip : ∀ cs, element (skipBlanks cs) = element cs
  close : ∀ rest, element (close :: rest) = none

theorem readSequence_skipBlanks (hskips : SkipsBlanks element close) (fuel : Nat) (cs : List Char) :
    readSequence element close fuel (skipBlanks cs) = readSequence element close fuel cs := by
  cases fuel with
  | zero => rfl
  | succ fuel => rw [readSequence, readSequence, hskips.skip]

theorem readBracketed_joined (hskips : SkipsBlanks element close) (hclose : close ≠ ',')
    (hblank : isBlank close = false) (hstop : continuesNumber close = false) {gap : List Char} (hgap : AllBlank gap)
    {texts : List (List Char)} {values : List α} (hreads : List.Forall₂ (ReadsElement element) texts values)
    (hne : texts ≠ []) (rest : List Char) :
    readBracketed element close (joined texts ++ (gap ++ close :: rest)) = some (values, rest) := by
  have hfuel := length_le_length_skipBlanks hblank gap rest texts
  have hread := readSequence_joined hclose hblank hstop hgap hreads hne rest hfuel
  have hopen : ¬ ∃ after, skipBlanks (joined texts ++ (gap ++ close :: rest)) = close :: after := by
    rintro ⟨after, hafter⟩
    rw [← readSequence_skipBlanks hskips, hafter, List.length_cons, readSequence, hskips.close] at hread
    exact absurd hread (by simp)
  rw [readBracketed_of_not_close hopen, readSequence_skipBlanks hskips]
  exact hread

end Sequences

theorem skipsBlanks_item (d : Nat) : SkipsBlanks (fun cs => readValue d (skipBlanks cs)) ']' where
  skip cs := by rw [skipBlanks_skipBlanks]
  close rest := by
    cases hread : readValue d (skipBlanks (']' :: rest)) with
    | none => rfl
    | some r =>
        rw [skipBlanks_cons (by decide)] at hread
        obtain ⟨c, tail, hcons, hstart⟩ := exists_startsValue_of_readValue hread
        rw [← (List.cons.inj hcons).1] at hstart
        exact absurd hstart (by decide)

theorem skipsBlanks_member (item : Reader Json) : SkipsBlanks (readMember item) '}' where
  skip cs := by rw [readMember, readMember, skipBlanks_skipBlanks]
  close rest := by
    rw [readMember, skipBlanks_cons (by decide)]
    rfl

/-! ### Spaced texts -/

/-- The blanks of a text: before each item at a level and before what closes the level above, and after a colon. -/
structure Spacing where
  before : Nat → List Char
  afterColon : List Char
  before_blank : ∀ level, AllBlank (before level)
  afterColon_blank : AllBlank afterColon

namespace Spacing

def compact : Spacing where
  before _ := []
  afterColon := []
  before_blank _ := by simp [AllBlank]
  afterColon_blank := by simp [AllBlank]

/-- A line for each item and member. -/
def indented : Spacing where
  before := newLine
  afterColon := [' ']
  before_blank level := by
    intro c hc
    rcases List.mem_cons.1 hc with rfl | hc
    · decide
    · rw [List.eq_of_mem_replicate hc]
      decide
  afterColon_blank := by
    intro c hc
    rw [List.mem_singleton.1 hc]
    decide

end Spacing

section Spaced

variable (spacing : Spacing)

mutual

/-- The text of a value that stands at a level. -/
def spaced (level : Nat) : Json → List Char
  | null => "null".toList
  | bool true => "true".toList
  | bool false => "false".toList
  | int n => intText n
  | float x => floatLayout.text x
  | str s => quoted s
  | arr [] => ['[', ']']
  | arr (item :: rest) =>
      '[' :: (joined (spacedItems (level + 1) (item :: rest)) ++ (spacing.before level ++ [']']))
  | obj [] => ['{', '}']
  | obj (member :: rest) =>
      '{' :: (joined (spacedMembers (level + 1) (member :: rest)) ++ (spacing.before level ++ ['}']))

def spacedItems (level : Nat) : List Json → List (List Char)
  | [] => []
  | item :: rest => (spacing.before level ++ spaced level item) :: spacedItems level rest

def spacedMembers (level : Nat) : List (String × Json) → List (List Char)
  | [] => []
  | (key, value) :: rest =>
      (spacing.before level ++ (quoted key ++ ':' :: (spacing.afterColon ++ spaced level value))) ::
        spacedMembers level rest

end

end Spaced

mutual

theorem compactChars_eq_spaced : ∀ (level : Nat) (value : Json), compactChars value = spaced .compact level value
  | _, null | _, bool true | _, bool false | _, int _ | _, float _ | _, str _ | _, arr [] | _, obj [] => rfl
  | level, arr (item :: rest) => by
      rw [compactChars, compactItems_eq_joined (level + 1) (item :: rest)]
      rfl
  | level, obj (member :: rest) => by
      rw [compactChars, compactMembers_eq_joined (level + 1) (member :: rest)]
      rfl

theorem compactItems_eq_joined :
    ∀ (level : Nat) (items : List Json), compactItems items = joined (spacedItems .compact level items)
  | _, [] => rfl
  | level, [item] => by
      rw [compactItems, compactChars_eq_spaced level item]
      rfl
  | level, item :: next :: rest => by
      rw [compactItems, compactChars_eq_spaced level item, compactItems_eq_joined level (next :: rest)]
      · rfl
      · simp

theorem compactMembers_eq_joined : ∀ (level : Nat) (members : List (String × Json)),
    compactMembers members = joined (spacedMembers .compact level members)
  | _, [] => rfl
  | level, [(key, value)] => by
      rw [compactMembers, compactChars_eq_spaced level value]
      rfl
  | level, (key, value) :: next :: rest => by
      rw [compactMembers, compactChars_eq_spaced level value, compactMembers_eq_joined level (next :: rest)]
      · simp [spacedMembers, joined, Spacing.compact]
      · simp

end

mutual

theorem prettyChars_eq_spaced : ∀ (level : Nat) (value : Json), prettyChars level value = spaced .indented level value
  | _, null | _, bool true | _, bool false | _, int _ | _, float _ | _, str _ | _, arr [] | _, obj [] => rfl
  | level, arr (item :: rest) => by
      rw [prettyChars, prettyItems_eq_joined (level + 1) (item :: rest), List.append_assoc]
      rfl
  | level, obj (member :: rest) => by
      rw [prettyChars, prettyMembers_eq_joined (level + 1) (member :: rest), List.append_assoc]
      rfl

theorem prettyItems_eq_joined :
    ∀ (level : Nat) (items : List Json), prettyItems level items = joined (spacedItems .indented level items)
  | _, [] => rfl
  | level, [item] => by
      rw [prettyItems, prettyChars_eq_spaced level item]
      rfl
  | level, item :: next :: rest => by
      rw [prettyItems, prettyChars_eq_spaced level item, prettyItems_eq_joined level (next :: rest)]
      · rfl
      · simp

theorem prettyMembers_eq_joined : ∀ (level : Nat) (members : List (String × Json)),
    prettyMembers level members = joined (spacedMembers .indented level members)
  | _, [] => rfl
  | level, [(key, value)] => by
      rw [prettyMembers, prettyChars_eq_spaced level value]
      simp [spacedMembers, joined, Spacing.indented]
  | level, (key, value) :: next :: rest => by
      rw [prettyMembers, prettyChars_eq_spaced level value, prettyMembers_eq_joined level (next :: rest)]
      · simp [spacedMembers, joined, Spacing.indented]
      · simp

end

/-! ### Reading a text back -/

/-- A text that is read as a number starts with a minus sign or a digit. -/
theorem readValue_of_readNumber (d : Nat) {cs : List Char} {r : Json × List Char} (hread : readNumber cs = some r) :
    readValue d cs = some r := by
  have hstart : ∃ c tail, cs = c :: tail ∧ (c = '-' ∨ c.isDigit = true) := by
    unfold readNumber at hread
    split at hread
    · exact ⟨'-', _, rfl, .inl rfl⟩
    · obtain ⟨c, tail, hcons, hdigit⟩ := exists_digit_of_readUnsigned hread
      exact ⟨c, tail, hcons, .inr hdigit⟩
  obtain ⟨c, tail, rfl, hc⟩ := hstart
  have hother : ∀ d : Char, d ≠ '-' → d.isDigit = false → c ≠ d := by
    rintro d hminus hdigit rfl
    rcases hc with hc | hc
    · exact hminus hc
    · rw [hc] at hdigit
      exact absurd hdigit (by simp)
  rw [readValue_scalar d (by simpa using hother '[' (by decide) (by decide))
    (by simpa using hother '{' (by decide) (by decide))]
  unfold readScalar
  split
  · rename_i heq
    exact absurd (List.cons.inj heq).1 (hother 'n' (by decide) (by decide))
  · rename_i heq
    exact absurd (List.cons.inj heq).1 (hother 't' (by decide) (by decide))
  · rename_i heq
    exact absurd (List.cons.inj heq).1 (hother 'f' (by decide) (by decide))
  · rename_i heq
    exact absurd (List.cons.inj heq).1 (hother '"' (by decide) (by decide))
  · exact hread

section RoundTrip

variable (spacing : Spacing)

/-- The text of a value, read by a reader of some depth. -/
def ReadsBack (d level : Nat) (value : Json) : Prop :=
  ReadsElement (readValue d) (spaced spacing level value) (value.withFloats reread)

variable {spacing}

theorem readsElement_item {d level : Nat} {value : Json} (hreads : ReadsBack spacing d level value) :
    ReadsElement (fun cs => readValue d (skipBlanks cs)) (spacing.before level ++ spaced spacing level value)
      (value.withFloats reread) := by
  intro rest hstops
  have hread := hreads rest hstops
  change readValue d (skipBlanks (spacing.before level ++ spaced spacing level value ++ rest)) = _
  rw [List.append_assoc, skipBlanks_append (spacing.before_blank level), skipBlanks_of_readValue hread]
  exact hread

theorem readsElement_member {d level : Nat} (key : String) {value : Json} (hreads : ReadsBack spacing d level value) :
    ReadsElement (readMember (readValue d))
      (spacing.before level ++ (quoted key ++ ':' :: (spacing.afterColon ++ spaced spacing level value)))
      (key, value.withFloats reread) := by
  intro rest hstops
  have hread := hreads rest hstops
  rw [readMember_eq_some_iff]
  refine ⟨':' :: (spacing.afterColon ++ (spaced spacing level value ++ rest)), _, ?_, skipBlanks_cons (by decide) _, ?_⟩
  · have hquote : skipBlanks (quoted key ++ ':' :: (spacing.afterColon ++ (spaced spacing level value ++ rest))) =
        quoted key ++ ':' :: (spacing.afterColon ++ (spaced spacing level value ++ rest)) :=
      skipBlanks_cons (by decide) _
    rw [List.append_assoc, skipBlanks_append (spacing.before_blank level), List.append_assoc, List.cons_append,
      List.append_assoc, hquote]
    exact readString_quoted key _
  · rw [skipBlanks_append spacing.afterColon_blank, skipBlanks_of_readValue hread]
    exact hread

theorem forall₂_spacedItems {d level : Nat} {items : List Json}
    (hreads : ∀ item ∈ items, ReadsBack spacing d level item) :
    List.Forall₂ (ReadsElement fun cs => readValue d (skipBlanks cs)) (spacedItems spacing level items)
      (items.map (withFloats reread)) := by
  induction items with
  | nil => exact .nil
  | cons item rest ih =>
      obtain ⟨hitem, hrest⟩ := List.forall_mem_cons.1 hreads
      exact .cons (readsElement_item hitem) (ih hrest)

theorem forall₂_spacedMembers {d level : Nat} {members : List (String × Json)}
    (hreads : ∀ member ∈ members, ReadsBack spacing d level member.2) :
    List.Forall₂ (ReadsElement (readMember (readValue d))) (spacedMembers spacing level members)
      (withFloatsInMembers reread members) := by
  induction members with
  | nil => exact .nil
  | cons member rest ih =>
      obtain ⟨hmember, hrest⟩ := List.forall_mem_cons.1 hreads
      exact .cons (readsElement_member member.1 hmember) (ih hrest)

/-- The text of a value is read back by every reader that goes deep enough. -/
theorem readsBack (spacing : Spacing) {value : Json} (hvalue : value.WellFormed) {d : Nat} (hdepth : value.depth ≤ d) (level : Nat) :
    ReadsBack spacing d level value := by
  induction hvalue generalizing d level with
  | null =>
      intro rest _
      exact readValue_scalar d (by simp [spaced]) (by simp [spaced])
  | bool b =>
      intro rest _
      cases b <;> exact readValue_scalar d (by simp [spaced]) (by simp [spaced])
  | int hfits =>
      intro rest hstops
      exact readValue_of_readNumber d (readNumber_intText hfits hstops)
  | float x =>
      intro rest hstops
      exact readValue_of_readNumber d (readNumber_text x hstops)
  | str s =>
      intro rest _
      rw [spaced, readValue_scalar d (by simp [quoted]) (by simp [quoted])]
      change (readString (quoted s ++ rest)).map _ = _
      rw [readString_quoted]
      rfl
  | @arr items hitems ih =>
      obtain ⟨d, rfl⟩ : ∃ below, d = below + 1 := Nat.exists_eq_add_of_le' (Nat.le_trans (Nat.succ_pos _) hdepth)
      have hdepths := depth_arr_le_iff.1 hdepth
      intro rest _
      cases items with
      | nil => rfl
      | cons item others =>
          have hall := forall₂_spacedItems fun other hmem => ih other hmem (hdepths other hmem) (level + 1)
          have hread := readBracketed_joined (skipsBlanks_item d) (by decide) (by decide) (by decide)
            (spacing.before_blank level) hall (by simp [spacedItems]) rest
          rw [spaced, List.cons_append, readValue_bracket, List.append_assoc, List.append_assoc, List.singleton_append,
            hread, withFloats_arr]
          rfl
  | @obj members hnodup hmembers ih =>
      obtain ⟨d, rfl⟩ : ∃ below, d = below + 1 := Nat.exists_eq_add_of_le' (Nat.le_trans (Nat.succ_pos _) hdepth)
      have hdepths := depth_obj_le_iff.1 hdepth
      intro rest _
      cases members with
      | nil => rfl
      | cons member others =>
          have hall := forall₂_spacedMembers fun other hmem => ih other hmem (hdepths other hmem) (level + 1)
          have hread := readBracketed_joined (skipsBlanks_member (readValue d)) (by decide) (by decide) (by decide)
            (spacing.before_blank level) hall (by simp [spacedMembers]) rest
          have hkeys : (Assoc.keys (withFloatsInMembers reread (member :: others))).Nodup := by
            rw [keys_withFloatsInMembers]
            exact hnodup
          rw [spaced, List.cons_append, readValue_brace, List.append_assoc, List.append_assoc, List.singleton_append,
            hread, withFloats]
          exact congrArg (fun entries => some (obj entries, rest)) (Assoc.ofList_eq_self hkeys)

end RoundTrip

/-! ### Whole texts -/

theorem readValue_eq_none_of_depth_lt (spacing : Spacing) {d : Nat} {value : Json} (hvalue : value.WellFormed)
    (hdepth : d < value.depth) (level : Nat) : readValue d (spaced spacing level value) = none := by
  cases hread : readValue d (spaced spacing level value) with
  | none => rfl
  | some r =>
      -- A deeper reader would read the same and the value itself, but those differ in depth.
      have hextends : ∀ more, readValue (d + more) (spaced spacing level value) = some r := by
        intro more
        induction more with
        | zero => exact hread
        | succ more ih => exact readValue_extends (d + more) _ _ ih
      have hself := readsBack spacing hvalue (Nat.le_refl value.depth) level [] stops_nil
      rw [List.append_nil] at hself
      have hgreater := hextends (value.depth - d)
      rw [Nat.add_sub_cancel' hdepth.le, hself] at hgreater
      obtain rfl := Option.some.inj hgreater
      have hbound := (wellFormed_and_depth_le_of_readValue hread).2
      rw [depth_withFloats] at hbound
      exact absurd hbound (Nat.not_le.2 hdepth)

theorem parse?_spaced (spacing : Spacing) {value : Json} (hvalue : value.WellFormed) (level : Nat) :
    parse? (spaced spacing level value) =
      if value.depth ≤ depthLimit then some (value.withFloats reread) else none := by
  by_cases hdepth : value.depth ≤ depthLimit
  · have hread := readsBack spacing hvalue hdepth level [] stops_nil
    rw [List.append_nil] at hread
    rw [if_pos hdepth, parse?, parseStart?, skipBlanks_of_readValue hread, hread]
    rfl
  · have hread := readsBack spacing hvalue (Nat.le_refl value.depth) level [] stops_nil
    rw [List.append_nil] at hread
    have hnone := readValue_eq_none_of_depth_lt spacing hvalue (Nat.not_le.1 hdepth) level
    rw [if_neg hdepth, parse?, parseStart?, skipBlanks_of_readValue hread, hnone]

theorem parse?_compact {value : Json} (hvalue : value.WellFormed) :
    parse? value.compact.toList = if value.depth ≤ depthLimit then some (value.withFloats reread) else none := by
  rw [compact, String.toList_ofList, compactChars_eq_spaced 0]
  exact parse?_spaced _ hvalue 0

theorem parse?_pretty {value : Json} (hvalue : value.WellFormed) :
    parse? value.pretty.toList = if value.depth ≤ depthLimit then some (value.withFloats reread) else none := by
  rw [pretty, String.toList_ofList, prettyChars_eq_spaced]
  exact parse?_spaced _ hvalue 0

theorem exists_startsValue_pretty {value : Json} (hvalue : value.WellFormed) :
    ∃ c tail, value.pretty.toList = c :: tail ∧ startsValue c = true := by
  have hread := readsBack .indented hvalue (Nat.le_refl value.depth) 0 [] stops_nil
  rw [List.append_nil] at hread
  rw [pretty, String.toList_ofList, prettyChars_eq_spaced]
  exact exists_startsValue_of_readValue hread

theorem exists_parseStart? {cs : List Char} {value : Json} (hparse : parse? cs = some value) :
    ∃ rest, parseStart? cs = some (value, rest) := by
  unfold parse? at hparse
  split at hparse
  · rename_i found rest hfound
    split at hparse
    · exact ⟨rest, Option.some.inj hparse ▸ hfound⟩
    · nomatch hparse
  · nomatch hparse

/-- A value at the start of a text is one that a text can stand for, and it does not nest deeper than the reader goes. -/
theorem wellFormed_and_depth_le_of_parseStart? {cs rest : List Char} {value : Json}
    (hparse : parseStart? cs = some (value, rest)) : value.WellFormed ∧ value.depth ≤ depthLimit :=
  wellFormed_and_depth_le_of_readValue hparse

end AddressBook.Json
