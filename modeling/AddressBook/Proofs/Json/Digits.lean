import AddressBook.Json.Printer
import AddressBook.Proofs.Json.Shape
/-!
# Reading digits back

A number is read up to the first character that can not go on with it, so its text may stand in front of anything that
stops it. A whole number of 64 bits is read back from its digits; the digits of a double are absorbed for as long as
they fit, which here is said of the digits that were taken.
-/

namespace AddressBook.Json

open Text (spanDigits digitValue)

/-! ### What stops a number -/

/-- Whether a character after a number would belong to it. -/
def continuesNumber (c : Char) : Bool := c.isDigit || c == '.' || c == 'e' || c == 'E'

/-- A text that does not go on with a number before it. -/
def Stops (rest : List Char) : Prop := ∀ c ∈ rest.head?, continuesNumber c = false

theorem stops_nil : Stops [] := by simp [Stops]

theorem stops_cons {c : Char} (hc : continuesNumber c = false) (rest : List Char) : Stops (c :: rest) := by
  simpa [Stops] using hc

theorem Stops.head?_isDigit {rest : List Char} (hstops : Stops rest) : ∀ c ∈ rest.head?, c.isDigit = false := by
  intro c hc
  have hrest := hstops c hc
  simp only [continuesNumber, Bool.or_eq_false_iff] at hrest
  exact hrest.1.1.1

theorem spanDigits_append {digits rest : List Char} (hdigits : ∀ c ∈ digits, c.isDigit = true)
    (hrest : ∀ c ∈ rest.head?, c.isDigit = false) : spanDigits (digits ++ rest) = (digits, rest) := by
  have hstart : rest.takeWhile Char.isDigit = [] ∧ rest.dropWhile Char.isDigit = rest := by
    cases rest with
    | nil => simp
    | cons c rest =>
        have hc : c.isDigit = false := hrest c rfl
        simp [hc]
  rw [spanDigits, List.takeWhile_append_of_pos hdigits, List.dropWhile_append_of_pos hdigits, hstart.1, hstart.2,
    List.append_nil]

/-! ### The parts of a literal -/

theorem readWhole_append {digits rest : List Char} (hdigits : ∀ c ∈ digits, c.isDigit = true) (hne : digits ≠ [])
    (hzero : digits.head? = some '0' → digits = ['0']) (hrest : ∀ c ∈ rest.head?, c.isDigit = false) :
    readWhole (digits ++ rest) = some (digits, rest) := by
  unfold readWhole
  rw [spanDigits_append hdigits hrest]
  split
  · rename_i heq
    exact absurd (Prod.mk.inj heq).1 hne
  · rename_i heq
    obtain ⟨rfl, -⟩ := Prod.mk.inj heq
    exact absurd (hzero rfl) (by simp)
  · rename_i heq
    obtain ⟨rfl, rfl⟩ := Prod.mk.inj heq
    rfl

theorem readFraction_of_stops {rest : List Char} (hstops : Stops rest) : readFraction rest = some (none, rest) := by
  unfold readFraction
  split
  · have hpoint := hstops '.' rfl
    exact absurd hpoint (by decide)
  · rfl

theorem readFraction_append {digits rest : List Char} (hdigits : ∀ c ∈ digits, c.isDigit = true) (hne : digits ≠ [])
    (hrest : ∀ c ∈ rest.head?, c.isDigit = false) :
    readFraction ('.' :: (digits ++ rest)) = some (some digits, rest) := by
  simp only [readFraction]
  rw [spanDigits_append hdigits hrest]
  split
  · rename_i heq
    exact absurd (Prod.mk.inj heq).1 hne
  · rename_i heq
    obtain ⟨rfl, rfl⟩ := Prod.mk.inj heq
    rfl

theorem readExponent_of_stops {rest : List Char} (hstops : Stops rest) : readExponent rest = some (none, rest) := by
  unfold readExponent
  split
  · have he := hstops 'e' rfl
    exact absurd he (by decide)
  · have he := hstops 'E' rfl
    exact absurd he (by decide)
  · rfl

theorem readUnsigned_of_parts (negative : Bool) {cs behindWhole behindFraction rest whole : List Char}
    {fraction : Option (List Char)} {exponent : Option Int} (hwhole : readWhole cs = some (whole, behindWhole))
    (hfraction : readFraction behindWhole = some (fraction, behindFraction))
    (hexponent : readExponent behindFraction = some (exponent, rest)) :
    readUnsigned negative cs = (numberOfParts negative whole fraction exponent).map fun value => (value, rest) := by
  simp only [readUnsigned, hwhole, hfraction, hexponent, Option.bind_eq_bind, Option.bind_some, Option.pure_def]
  cases numberOfParts negative whole fraction exponent <;> rfl

theorem readNumber_of_digit {c : Char} (hc : c.isDigit = true) (cs : List Char) :
    readNumber (c :: cs) = readUnsigned false (c :: cs) := by
  unfold readNumber
  split
  · rename_i heq
    obtain ⟨rfl, -⟩ := List.cons.inj heq
    exact absurd hc (by decide)
  · rfl

theorem readUnsigned_eq_none (negative : Bool) {c : Char} (hc : c.isDigit = false) (tail : List Char) :
    readUnsigned negative (c :: tail) = none := by
  have hspan : spanDigits (c :: tail) = ([], c :: tail) := by simp [spanDigits, hc]
  simp [readUnsigned, readWhole, hspan]

/-! ### Absorbing digits -/

theorem digitValue_eq (c : Char) : digitValue c = c.toNat - '0'.toNat := rfl

theorem absorb_cons_of_lt {n : Nat} {c : Char} (rest : List Char) (hfits : 10 * n + digitValue c < unsignedBound) :
    absorb n (c :: rest) = absorb (10 * n + digitValue c) rest := by
  rw [absorb, if_pos hfits]

theorem absorb_lt {n : Nat} (hn : n < unsignedBound) (cs : List Char) : (absorb n cs).1 < unsignedBound := by
  induction cs generalizing n with
  | nil => exact hn
  | cons c rest ih =>
      rw [absorb]
      split
      · rename_i hfits
        exact ih hfits
      · exact hn

/-- The digits that were taken make up the number, and the others are left over. -/
theorem exists_taken_absorb (n : Nat) (cs : List Char) :
    ∃ taken, cs = taken ++ (absorb n cs).2 ∧ (absorb n cs).1 = Nat.ofDigitChars 10 taken n := by
  induction cs generalizing n with
  | nil => exact ⟨[], rfl, rfl⟩
  | cons c rest ih =>
      by_cases hfits : 10 * n + digitValue c < unsignedBound
      · rw [absorb_cons_of_lt rest hfits]
        obtain ⟨taken, hrest, hvalue⟩ := ih (10 * n + digitValue c)
        refine ⟨c :: taken, ?_, ?_⟩
        · rw [List.cons_append, ← hrest]
        · rw [Nat.ofDigitChars_cons, hvalue, digitValue_eq]
      · rw [absorb, if_neg hfits]
        exact ⟨[], rfl, rfl⟩

theorem le_ofDigitChars (n : Nat) (cs : List Char) : n ≤ Nat.ofDigitChars 10 cs n := by
  induction cs generalizing n with
  | nil => exact Nat.le_refl n
  | cons c rest ih =>
      rw [Nat.ofDigitChars_cons]
      have hnext := ih (10 * n + (c.toNat - '0'.toNat))
      omega

theorem absorb_eq_of_lt {n : Nat} {cs : List Char} (hfits : Nat.ofDigitChars 10 cs n < unsignedBound) :
    absorb n cs = (Nat.ofDigitChars 10 cs n, []) := by
  induction cs generalizing n with
  | nil => rfl
  | cons c rest ih =>
      rw [Nat.ofDigitChars_cons] at hfits ⊢
      have hfirst := le_ofDigitChars (10 * n + (c.toNat - '0'.toNat)) rest
      rw [absorb_cons_of_lt rest (by rw [digitValue_eq]; omega)]
      exact ih hfits

/-! ### Whole numbers -/

theorem isDigit_toDigits (n : Nat) : ∀ c ∈ Nat.toDigits 10 n, c.isDigit = true := by
  intro c hc
  exact Nat.isDigit_of_mem_toDigits (by decide) (by decide) hc

/-- Only zero is written with a zero at the front. -/
theorem head?_toDigits (n : Nat) : (Nat.toDigits 10 n).head? = some '0' → n = 0 := by
  induction n using Nat.strongRecOn with
  | ind n ih =>
      intro hhead
      by_cases hn : n < 10
      · rw [Nat.toDigits_of_lt_base hn, List.head?_cons, Option.some.injEq, Nat.digitChar_eq_zero] at hhead
        exact hhead
      · have hfirst : (Nat.toDigits 10 (n / 10)).head? ≠ none := by simp [Nat.toDigits_ne_nil]
        rw [Nat.toDigits_of_base_le (by decide) (by omega), List.head?_append, Option.or_of_isSome (by
          rwa [← Option.ne_none_iff_isSome])] at hhead
        have hzero := ih (n / 10) (by omega) hhead
        omega

theorem toDigits_eq_zero_of_head? {n : Nat} (hhead : (Nat.toDigits 10 n).head? = some '0') :
    Nat.toDigits 10 n = ['0'] := by
  rw [head?_toDigits n hhead]
  rfl

theorem readUnsigned_toDigits (negative : Bool) (n : Nat) {rest : List Char} (hstops : Stops rest)
    (hn : n < unsignedBound) :
    readUnsigned negative (Nat.toDigits 10 n ++ rest) =
      (wholeNumber negative n).map fun value => (value, rest) := by
  have hwhole := readWhole_append (isDigit_toDigits n) Nat.toDigits_ne_nil toDigits_eq_zero_of_head?
    hstops.head?_isDigit
  rw [readUnsigned_of_parts negative hwhole (readFraction_of_stops hstops) (readExponent_of_stops hstops)]
  have habsorb : absorb 0 (Nat.toDigits 10 n) = (n, []) := by
    rw [absorb_eq_of_lt (by rwa [Nat.ofDigitChars_ten_toDigits]), Nat.ofDigitChars_ten_toDigits]
  simp [numberOfParts, habsorb]

/-- A whole number of 64 bits is read back from its text. -/
theorem readNumber_intText {n : Int} (hn : Fits64 n) {rest : List Char} (hstops : Stops rest) :
    readNumber (intText n ++ rest) = some (.int n, rest) := by
  obtain ⟨hleast, hbound⟩ := hn
  have hpow : Nat.pow 2 63 = 9223372036854775808 := rfl
  have hlimit : unsignedBound = 18446744073709551616 := rfl
  unfold leastSigned at hleast
  by_cases hsign : n < 0
  · have hread : readNumber (intText n ++ rest) = readUnsigned true (Nat.toDigits 10 n.natAbs ++ rest) := by
      rw [intText, if_pos hsign]
      rfl
    rw [hread, readUnsigned_toDigits true _ hstops (by omega)]
    have hnonzero : n.natAbs ≠ 0 ∧ n.natAbs ≤ Nat.pow 2 63 := by omega
    have hvalue : -(n.natAbs : Int) = n := by omega
    have hwhole : wholeNumber true n.natAbs = some (.int n) := by
      rw [wholeNumber, Bool.not_true, if_neg Bool.false_ne_true, if_pos hnonzero, hvalue]
    rw [hwhole, Option.map_some]
  · have hvalue : (n.natAbs : Int) = n := by omega
    obtain ⟨c, tail, hdigits⟩ := List.exists_cons_of_ne_nil (Nat.toDigits_ne_nil (n := n.natAbs) (b := 10))
    have hread : readNumber (intText n ++ rest) = readUnsigned false (Nat.toDigits 10 n.natAbs ++ rest) := by
      rw [intText, if_neg hsign, List.nil_append, hdigits, List.cons_append, readNumber_of_digit]
      exact isDigit_toDigits n.natAbs c (hdigits ▸ List.mem_cons_self)
    rw [hread, readUnsigned_toDigits false _ hstops (by omega)]
    have hwhole : wholeNumber false n.natAbs = some (.int n) := by
      rw [wholeNumber, Bool.not_false, if_pos rfl, hvalue]
    rw [hwhole, Option.map_some]

end AddressBook.Json
