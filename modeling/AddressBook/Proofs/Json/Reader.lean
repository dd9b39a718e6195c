import AddressBook.Json.Reader
import AddressBook.Proofs.Json.Digits
/-!
# What the reader of JSON answers

Each step of the reader is said once, as the list of the ways in which it ends well. From these steps follow, by
induction on the items of an array and on the levels of the reader, that every value that is read is well-formed and
nests no deeper than the reader goes, that it starts with no blank and no closing bracket, and that a reader which goes
deeper reads the same.
-/

namespace AddressBook.Json

open Text (Reader spanDigits digitValue)

/-- The second reader reads whatever the first one reads. -/
def Extends {α : Type} (lesser greater : Reader α) : Prop := ∀ cs r, lesser cs = some r → greater cs = some r

/-! ### Numbers -/

/-- The value of a literal is a whole number that fits 64 bits, or a double. -/
def IsNumber (value : Json) : Prop := (∃ n, value = .int n ∧ Fits64 n) ∨ ∃ x, value = .float x

theorem isNumber_of_floatOf? {negative : Bool} {significand : Nat} {exponent : Int} {value : Json}
    (hvalue : floatOf? negative significand exponent = some value) : IsNumber value := by
  obtain ⟨x, -, rfl⟩ := Option.map_eq_some_iff.1 hvalue
  exact .inr ⟨_, rfl⟩

theorem isNumber_of_wholeNumber {negative : Bool} {n : Nat} {value : Json} (hn : n < unsignedBound)
    (hvalue : wholeNumber negative n = some value) : IsNumber value := by
  unfold wholeNumber at hvalue
  split at hvalue
  · obtain rfl := Option.some.inj hvalue
    refine .inl ⟨n, rfl, ?_, by omega⟩
    unfold leastSigned
    omega
  · split at hvalue
    · rename_i hbounds
      obtain rfl := Option.some.inj hvalue
      refine .inl ⟨-n, rfl, ?_, ?_⟩
      · unfold leastSigned
        omega
      · unfold unsignedBound
        omega
    · exact isNumber_of_floatOf? hvalue

theorem isNumber_of_numberOfParts {negative : Bool} {whole : List Char} {fraction : Option (List Char)}
    {exponent : Option Int} {value : Json} (hvalue : numberOfParts negative whole fraction exponent = some value) :
    IsNumber value := by
  have hsignificand : (absorb 0 whole).1 < unsignedBound := absorb_lt (by decide) whole
  unfold numberOfParts at hvalue
  dsimp only at hvalue
  split at hvalue
  · split at hvalue
    · exact isNumber_of_wholeNumber hsignificand hvalue
    · exact isNumber_of_floatOf? hvalue
  · exact isNumber_of_floatOf? hvalue

theorem isNumber_of_readNumber {cs rest : List Char} {value : Json} (hread : readNumber cs = some (value, rest)) :
    IsNumber value := by
  have hunsigned : ∀ negative cs, readUnsigned negative cs = some (value, rest) → IsNumber value := by
    intro negative cs hread
    simp only [readUnsigned, Option.bind_eq_bind, Option.bind_eq_some_iff, Prod.exists, Option.pure_def,
      Option.some.injEq, Prod.mk.injEq] at hread
    obtain ⟨whole, _, -, fraction, _, -, exponent, _, -, result, hvalue, rfl, -⟩ := hread
    exact isNumber_of_numberOfParts hvalue
  unfold readNumber at hread
  split at hread
  · exact hunsigned true _ hread
  · exact hunsigned false _ hread

/-! ### Scalars -/

def IsScalar (value : Json) : Prop := value.WellFormed ∧ value.depth = 0

theorem isScalar_of_readScalar {cs rest : List Char} {value : Json} (hread : readScalar cs = some (value, rest)) :
    IsScalar value := by
  unfold readScalar at hread
  split at hread
  · obtain ⟨rfl, -⟩ := Prod.mk.inj (Option.some.inj hread)
    exact ⟨.null, rfl⟩
  · obtain ⟨rfl, -⟩ := Prod.mk.inj (Option.some.inj hread)
    exact ⟨.bool true, rfl⟩
  · obtain ⟨rfl, -⟩ := Prod.mk.inj (Option.some.inj hread)
    exact ⟨.bool false, rfl⟩
  · obtain ⟨⟨s, tail⟩, -, hvalue⟩ := Option.map_eq_some_iff.1 hread
    obtain ⟨rfl, -⟩ := Prod.mk.inj hvalue
    exact ⟨.str s, rfl⟩
  · rcases isNumber_of_readNumber hread with ⟨n, rfl, hfits⟩ | ⟨x, rfl⟩
    · exact ⟨.int hfits, rfl⟩
    · exact ⟨.float x, rfl⟩

def startsScalar (c : Char) : Bool := c.isDigit || c == '-' || c == '"' || c == 'n' || c == 't' || c == 'f'

theorem readScalar_eq_none {c : Char} (hc : startsScalar c = false) (tail : List Char) :
    readScalar (c :: tail) = none := by
  simp only [startsScalar, Bool.or_eq_false_iff, beq_eq_false_iff_ne] at hc
  obtain ⟨⟨⟨⟨⟨hdigit, hminus⟩, hquote⟩, hn⟩, ht⟩, hf⟩ := hc
  unfold readScalar
  split
  · rename_i heq
    exact absurd (List.cons.inj heq).1 hn
  · rename_i heq
    exact absurd (List.cons.inj heq).1 ht
  · rename_i heq
    exact absurd (List.cons.inj heq).1 hf
  · rename_i heq
    exact absurd (List.cons.inj heq).1 hquote
  · unfold readNumber
    split
    · rename_i heq
      exact absurd (List.cons.inj heq).1 hminus
    · exact readUnsigned_eq_none false hdigit tail

/-! ### Items and members

Items and members are both read one after the other, with commas between them, up to a closing character.
-/

/-- Reads elements with commas between them, up to the closing character. -/
def readSequence {α : Type} (element : Reader α) (close : Char) : Nat → Reader (List α)
  | 0, _ => none
  | fuel + 1, cs => do
      let (value, cs) ← element cs
      match skipBlanks cs with
      | ',' :: cs => (readSequence element close fuel cs).map fun (values, cs) => (value :: values, cs)
      | c :: cs => if c = close then some ([value], cs) else none
      | [] => none

theorem readItems_eq_readSequence (item : Reader Json) (fuel : Nat) (cs : List Char) :
    readItems item fuel cs = readSequence (fun cs => item (skipBlanks cs)) ']' fuel cs := by
  induction fuel generalizing cs with
  | zero => rfl
  | succ fuel ih =>
      simp only [readItems, readSequence, ih]
      refine congrArg _ (funext fun (value, tail) => ?_)
      dsimp only
      split <;> simp_all
      split <;> simp_all

theorem readMembers_eq_readSequence (item : Reader Json) (fuel : Nat) (cs : List Char) :
    readMembers item fuel cs = readSequence (readMember item) '}' fuel cs := by
  induction fuel generalizing cs with
  | zero => rfl
  | succ fuel ih =>
      simp only [readMembers, readSequence, ih]
      refine congrArg _ (funext fun (member, tail) => ?_)
      dsimp only
      split <;> simp_all
      split <;> simp_all

section Sequences

variable {α : Type} {element other : Reader α} {close : Char} {fuel : Nat} {cs rest : List Char} {values : List α}

theorem readSequence_succ_eq_some_iff (hclose : close ≠ ',') :
    readSequence element close (fuel + 1) cs = some (values, rest) ↔
      ∃ value tail, element cs = some (value, tail) ∧
        ((∃ next others, skipBlanks tail = ',' :: next ∧ readSequence element close fuel next = some (others, rest) ∧
            values = value :: others) ∨
          skipBlanks tail = close :: rest ∧ values = [value]) := by
  simp only [readSequence, Option.bind_eq_bind, Option.bind_eq_some_iff, Prod.exists]
  refine exists_congr fun value => exists_congr fun tail => and_congr_right fun _ => ?_
  split
  · rename_i next hnext
    have hcomma : ∀ after, ',' :: next ≠ close :: after := fun after heq => hclose (List.cons.inj heq).1.symm
    simp only [hnext, Option.map_eq_some_iff, Prod.exists, Prod.mk.injEq, hcomma, false_and, or_false]
    constructor
    · rintro ⟨others, after, hothers, rfl, rfl⟩
      exact ⟨_, others, rfl, hothers, rfl⟩
    · rintro ⟨after, others, hafter, hothers, rfl⟩
      obtain rfl := (List.cons.inj hafter).2
      exact ⟨others, _, hothers, rfl, rfl⟩
  · rename_i c after hcomma hafter
    simp only [hafter, Option.ite_none_right_eq_some, Option.some.injEq, Prod.mk.injEq, List.cons.injEq]
    constructor
    · rintro ⟨rfl, rfl, rfl⟩
      exact .inr ⟨⟨rfl, rfl⟩, rfl⟩
    · rintro (⟨next, others, ⟨hc, rfl⟩, -⟩ | ⟨⟨rfl, rfl⟩, rfl⟩)
      · exact absurd hc hcomma
      · exact ⟨rfl, rfl, rfl⟩
  · rename_i hend
    simp [hend]

/-- What holds of every element that is read holds of all elements of a sequence. -/
theorem forall_of_readSequence {P : α → Prop} (hclose : close ≠ ',')
    (helement : ∀ cs value rest, element cs = some (value, rest) → P value)
    (hread : readSequence element close fuel cs = some (values, rest)) : ∀ value ∈ values, P value := by
  induction fuel generalizing cs values with
  | zero => simp [readSequence] at hread
  | succ fuel ih =>
      obtain ⟨value, tail, hvalue, hrest⟩ := (readSequence_succ_eq_some_iff hclose).1 hread
      have hfirst : P value := helement _ _ _ hvalue
      rcases hrest with ⟨next, others, -, hothers, rfl⟩ | ⟨-, rfl⟩
      · exact List.forall_mem_cons.2 ⟨hfirst, ih hothers⟩
      · exact List.forall_mem_cons.2 ⟨hfirst, by simp⟩

theorem readSequence_extends (hclose : close ≠ ',') (hextends : Extends element other) (fuel : Nat) :
    Extends (readSequence element close fuel) (readSequence other close fuel) := by
  intro cs r hread
  obtain ⟨values, rest⟩ := r
  induction fuel generalizing cs values with
  | zero => simp [readSequence] at hread
  | succ fuel ih =>
      rw [readSequence_succ_eq_some_iff hclose] at hread ⊢
      obtain ⟨value, tail, hvalue, hrest⟩ := hread
      refine ⟨value, tail, hextends _ _ hvalue, hrest.imp_left ?_⟩
      rintro ⟨next, others, hnext, hothers, hvalues⟩
      exact ⟨next, others, hnext, ih next others hothers, hvalues⟩

/-- Reads the elements after an opening bracket, of which there may be none. -/
def readBracketed {α : Type} (element : Reader α) (close : Char) : Reader (List α) := fun cs =>
  match skipBlanks cs with
  | c :: rest => if c = close then some ([], rest) else readSequence element close (c :: rest).length (c :: rest)
  | [] => none

theorem readBracketed_of_close (hcs : skipBlanks cs = close :: rest) :
    readBracketed element close cs = some ([], rest) := by
  simp [readBracketed, hcs]

theorem readBracketed_of_not_close (hcs : ¬ ∃ rest, skipBlanks cs = close :: rest) :
    readBracketed element close cs = readSequence element close (skipBlanks cs).length (skipBlanks cs) := by
  unfold readBracketed
  split
  · rename_i c rest hrest
    have hc : c ≠ close := fun heq => hcs ⟨rest, heq ▸ hrest⟩
    rw [if_neg hc, hrest]
  · rename_i hend
    rw [hend]
    rfl

theorem forall_of_readBracketed {P : α → Prop} (hclose : close ≠ ',')
    (helement : ∀ cs value rest, element cs = some (value, rest) → P value)
    (hread : readBracketed element close cs = some (values, rest)) : ∀ value ∈ values, P value := by
  by_cases hcs : ∃ rest, skipBlanks cs = close :: rest
  · obtain ⟨after, hafter⟩ := hcs
    rw [readBracketed_of_close hafter] at hread
    obtain ⟨rfl, -⟩ := Prod.mk.inj (Option.some.inj hread)
    simp
  · rw [readBracketed_of_not_close hcs] at hread
    exact forall_of_readSequence hclose helement hread

theorem readBracketed_extends (hclose : close ≠ ',') (hextends : Extends element other) :
    Extends (readBracketed element close) (readBracketed other close) := by
  intro cs r hread
  by_cases hcs : ∃ rest, skipBlanks cs = close :: rest
  · obtain ⟨after, hafter⟩ := hcs
    rw [readBracketed_of_close hafter] at hread ⊢
    exact hread
  · rw [readBracketed_of_not_close hcs] at hread ⊢
    exact readSequence_extends hclose hextends _ _ _ hread

end Sequences

/-! ### Levels of the reader -/

theorem readMember_eq_some_iff {item : Reader Json} {cs rest : List Char} {key : String} {value : Json} :
    readMember item cs = some ((key, value), rest) ↔
      ∃ tail next, readString (skipBlanks cs) = some (key, tail) ∧ skipBlanks tail = ':' :: next ∧
        item (skipBlanks next) = some (value, rest) := by
  simp only [readMember, Option.bind_eq_bind, Option.bind_eq_some_iff, Prod.exists]
  constructor
  · rintro ⟨found, tail, hkey, hread⟩
    split at hread
    · rename_i next hnext
      obtain ⟨⟨other, after⟩, hvalue, heq⟩ := Option.map_eq_some_iff.1 hread
      obtain ⟨⟨rfl, rfl⟩, rfl⟩ : (found = key ∧ other = value) ∧ after = rest := by simpa using heq
      exact ⟨tail, next, hkey, hnext, hvalue⟩
    · simp at hread
  · rintro ⟨tail, next, hkey, hnext, hvalue⟩
    exact ⟨key, tail, hkey, by simp [hnext, hvalue]⟩

theorem readMember_extends {item other : Reader Json} (hextends : Extends item other) :
    Extends (readMember item) (readMember other) := by
  rintro cs ⟨⟨key, value⟩, rest⟩ hread
  rw [readMember_eq_some_iff] at hread ⊢
  obtain ⟨tail, next, hkey, hnext, hvalue⟩ := hread
  exact ⟨tail, next, hkey, hnext, hextends _ _ hvalue⟩

theorem readValue_bracket (d : Nat) (cs : List Char) :
    readValue (d + 1) ('[' :: cs) =
      (readBracketed (fun cs => readValue d (skipBlanks cs)) ']' cs).map fun (items, rest) => (arr items, rest) := by
  by_cases hcs : ∃ rest, skipBlanks cs = ']' :: rest
  · obtain ⟨rest, hrest⟩ := hcs
    simp [readValue, readBracketed_of_close hrest, hrest]
  · rw [readBracketed_of_not_close hcs, ← readItems_eq_readSequence]
    simp only [readValue]
    split
    · rename_i rest hrest
      exact absurd ⟨rest, hrest⟩ hcs
    · rfl

theorem readValue_brace (d : Nat) (cs : List Char) :
    readValue (d + 1) ('{' :: cs) =
      (readBracketed (readMember (readValue d)) '}' cs).map fun (entries, rest) =>
        (obj (Assoc.ofList entries), rest) := by
  by_cases hcs : ∃ rest, skipBlanks cs = '}' :: rest
  · obtain ⟨rest, hrest⟩ := hcs
    simp [readValue, readBracketed_of_close hrest, hrest, Assoc.ofList, Assoc.extend]
  · rw [readBracketed_of_not_close hcs, ← readMembers_eq_readSequence]
    simp only [readValue]
    split
    · rename_i rest hrest
      exact absurd ⟨rest, hrest⟩ hcs
    · rfl

theorem readValue_scalar (d : Nat) {cs : List Char} (hbracket : cs.head? ≠ some '[') (hbrace : cs.head? ≠ some '{') :
    readValue d cs = readScalar cs := by
  cases d with
  | zero => rfl
  | succ d =>
      unfold readValue
      split
      · simp at hbracket
      · simp at hbrace
      · rfl

/-- A value is read in one of three ways: as an array, as an object, or without brackets. -/
theorem head?_cases (cs : List Char) :
    (∃ tail, cs = '[' :: tail) ∨ (∃ tail, cs = '{' :: tail) ∨ cs.head? ≠ some '[' ∧ cs.head? ≠ some '{' := by
  cases cs with
  | nil => simp
  | cons c tail =>
      by_cases hbracket : c = '['
      · simp [hbracket]
      · by_cases hbrace : c = '{' <;> simp [hbracket, hbrace]

/-- Every value that is read is one that a text can stand for, no deeper than the reader goes. -/
theorem wellFormed_and_depth_le_of_readValue {d : Nat} {cs rest : List Char} {value : Json}
    (hread : readValue d cs = some (value, rest)) : value.WellFormed ∧ value.depth ≤ d := by
  induction d generalizing cs value rest with
  | zero =>
      obtain ⟨hvalue, hdepth⟩ := isScalar_of_readScalar hread
      exact ⟨hvalue, hdepth ▸ Nat.le_refl _⟩
  | succ d ih =>
      rcases head?_cases cs with ⟨tail, rfl⟩ | ⟨tail, rfl⟩ | ⟨hbracket, hbrace⟩
      · rw [readValue_bracket] at hread
        obtain ⟨⟨items, after⟩, hitems, heq⟩ := Option.map_eq_some_iff.1 hread
        obtain ⟨rfl, -⟩ := Prod.mk.inj heq
        have hall := forall_of_readBracketed (by decide) (fun _ _ _ hitem => ih hitem) hitems
        exact ⟨.arr fun item hmem => (hall item hmem).1, depth_arr_le_iff.2 fun item hmem => (hall item hmem).2⟩
      · rw [readValue_brace] at hread
        obtain ⟨⟨entries, after⟩, hentries, heq⟩ := Option.map_eq_some_iff.1 hread
        obtain ⟨rfl, -⟩ := Prod.mk.inj heq
        have hmember : ∀ cs (member : String × Json) rest, readMember (readValue d) cs = some (member, rest) →
            member.2.WellFormed ∧ member.2.depth ≤ d := by
          rintro cs ⟨key, value⟩ rest hmember
          obtain ⟨_, _, -, -, hvalue⟩ := readMember_eq_some_iff.1 hmember
          exact ih hvalue
        have hall := forall_of_readBracketed (by decide) hmember hentries
        have hmembers := fun member hmem => hall member (Assoc.mem_of_mem_ofList hmem)
        exact ⟨.obj (Assoc.nodup_keys_ofList entries) fun member hmem => (hmembers member hmem).1,
          depth_obj_le_iff.2 fun member hmem => (hmembers member hmem).2⟩
      · rw [readValue_scalar _ hbracket hbrace] at hread
        obtain ⟨hvalue, hdepth⟩ := isScalar_of_readScalar hread
        exact ⟨hvalue, hdepth ▸ Nat.zero_le _⟩

theorem readValue_extends (d : Nat) : Extends (readValue d) (readValue (d + 1)) := by
  induction d with
  | zero =>
      intro cs r hread
      rcases head?_cases cs with ⟨tail, rfl⟩ | ⟨tail, rfl⟩ | ⟨hbracket, hbrace⟩
      · rw [readValue, readScalar_eq_none (by decide)] at hread
        exact absurd hread (by simp)
      · rw [readValue, readScalar_eq_none (by decide)] at hread
        exact absurd hread (by simp)
      · rw [readValue_scalar _ hbracket hbrace] at hread ⊢
        exact hread
  | succ d ih =>
      intro cs r hread
      rcases head?_cases cs with ⟨tail, rfl⟩ | ⟨tail, rfl⟩ | ⟨hbracket, hbrace⟩
      · rw [readValue_bracket] at hread ⊢
        obtain ⟨items, hitems, heq⟩ := Option.map_eq_some_iff.1 hread
        have hgreater := readBracketed_extends (by decide) (fun _ _ hitem => ih _ _ hitem) _ _ hitems
        rw [hgreater]
        exact congrArg some heq
      · rw [readValue_brace] at hread ⊢
        obtain ⟨entries, hentries, heq⟩ := Option.map_eq_some_iff.1 hread
        have hgreater := readBracketed_extends (by decide) (readMember_extends ih) _ _ hentries
        rw [hgreater]
        exact congrArg some heq
      · rw [readValue_scalar _ hbracket hbrace] at hread ⊢
        exact hread

/-! ### The start of a value -/

/-- Whether a value may start with a character: it is no blank, no form feed either, and it closes nothing. -/
def startsValue (c : Char) : Bool := !(isBlank c || c == '\x0C' || c == ']' || c == '}')

theorem startsScalar_eq_false {c : Char} (hc : startsValue c = false) : startsScalar c = false := by
  simp only [startsValue, isBlank, Bool.not_eq_false', Bool.or_eq_true, beq_iff_eq] at hc
  rcases hc with (((((rfl | rfl) | rfl) | rfl) | rfl) | rfl) | rfl <;> decide

theorem exists_startsValue_of_readValue {d : Nat} {cs : List Char} {r : Json × List Char}
    (hread : readValue d cs = some r) : ∃ c tail, cs = c :: tail ∧ startsValue c = true := by
  rcases head?_cases cs with ⟨tail, rfl⟩ | ⟨tail, rfl⟩ | ⟨hbracket, hbrace⟩
  · exact ⟨'[', tail, rfl, by decide⟩
  · exact ⟨'{', tail, rfl, by decide⟩
  · rw [readValue_scalar _ hbracket hbrace] at hread
    cases cs with
    | nil => simp [readScalar, readNumber, readUnsigned, readWhole, spanDigits] at hread
    | cons c tail =>
        refine ⟨c, tail, rfl, ?_⟩
        cases hc : startsValue c with
        | true => rfl
        | false =>
            rw [readScalar_eq_none (startsScalar_eq_false hc)] at hread
            exact absurd hread (by simp)

end AddressBook.Json
