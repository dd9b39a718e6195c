import AddressBook.Proofs.Json.Digits
import AddressBook.Proofs.Json.Scaling
/-!
# Reading doubles back

The text of a double is read as a double again. It need not be the same one, because the reader rounds twice where the
text was made for one rounding; but it is never refused. The digits that the reader takes are the first ones of the
shortest decimal, so their value does not go beyond the interval of the double, and two roundings do not carry that over
the largest double. The three largest doubles are too near to it for this estimate and are tried one by one.
-/

namespace AddressBook.Json

open Number (Binary64 Layout dropTrailingZeros)
open Number.Binary64 (overflow one)
open Text (digitValue spanDigits valueOf)

/-! ### Values of digits -/

theorem isDigit_iff {c : Char} : c.isDigit = true ↔ '0' ≤ c ∧ c ≤ '9' := by
  rw [Char.isDigit, Bool.and_eq_true, decide_eq_true_eq, decide_eq_true_eq]
  rfl

theorem digitValue_lt {c : Char} (hc : c.isDigit = true) : digitValue c < 10 := by
  have hbounds : '0'.toNat ≤ c.toNat ∧ c.toNat ≤ '9'.toNat := isDigit_iff.1 hc
  have hzero : '0'.toNat = 48 := rfl
  have hnine : '9'.toNat = 57 := rfl
  rw [digitValue_eq]
  omega

theorem hexValue?_of_isDigit {c : Char} (hc : c.isDigit = true) : Text.hexValue? c = some (digitValue c) := by
  rw [Text.hexValue?, if_pos (isDigit_iff.1 hc)]
  rfl

theorem valueOf_eq_ofDigitChars {digits : List Char} (hdigits : ∀ c ∈ digits, c.isDigit = true) :
    valueOf 10 digits = Nat.ofDigitChars 10 digits 0 := by
  have hfold : ∀ n, digits.foldl (fun n c => 10 * n + (Text.hexValue? c).getD 0) n = Nat.ofDigitChars 10 digits n := by
    induction digits with
    | nil => exact fun n => rfl
    | cons c rest ih =>
        intro n
        obtain ⟨hc, hrest⟩ := List.forall_mem_cons.1 hdigits
        rw [List.foldl_cons, ih hrest, hexValue?_of_isDigit hc, Nat.ofDigitChars_cons]
        rfl
  exact hfold 0

theorem ofDigitChars_lt {digits : List Char} (hdigits : ∀ c ∈ digits, c.isDigit = true) :
    Nat.ofDigitChars 10 digits 0 < 10 ^ digits.length := by
  induction digits with
  | nil => decide
  | cons c rest ih =>
      obtain ⟨hc, hrest⟩ := List.forall_mem_cons.1 hdigits
      have hrest := ih hrest
      have hfirst := Nat.mul_le_mul_left (10 ^ rest.length) (digitValue_lt hc)
      rw [digitValue_eq] at hfirst
      rw [Nat.ofDigitChars_cons, Nat.ofDigitChars_eq_ofDigitChars_zero, List.length_cons, Nat.pow_succ]
      rw [Nat.mul_zero, Nat.zero_add]
      rw [Nat.mul_succ] at hfirst
      omega

/-- The first digits, with zeros for the others, are worth no more than all digits. -/
theorem ofDigitChars_mul_le (front back : List Char) :
    Nat.ofDigitChars 10 front 0 * 10 ^ back.length ≤ Nat.ofDigitChars 10 (front ++ back) 0 := by
  rw [Nat.ofDigitChars_append, Nat.ofDigitChars_eq_ofDigitChars_zero (l := back), Nat.mul_comm]
  exact Nat.le_add_right _ _

/-! ### Literals of doubles -/

/-- What a literal is read as, whatever its sign is and whatever stops it. -/
def ReadsAs (text : List Char) (significand : Nat) (exponent : Int) : Prop :=
  ∀ negative rest, Stops rest →
    readUnsigned negative (text ++ rest) = (floatOf? negative significand exponent).map fun value => (value, rest)

/-- The power of ten of the last digit that was taken of a fraction. -/
def fractionPower (n : Nat) (fraction : List Char) : Int := (absorb n fraction).2.length - (fraction.length : Int)

theorem fractionPower_le (n : Nat) (fraction : List Char) : fractionPower n fraction ≤ 0 := by
  obtain ⟨taken, hsplit, -⟩ := exists_taken_absorb n fraction
  have hlength := congrArg List.length hsplit
  rw [List.length_append] at hlength
  unfold fractionPower
  omega

theorem numberOfParts_of_absorb (negative : Bool) {whole : List Char} {fraction : Option (List Char)}
    {exponent : Option Int} {n : Nat} (hwhole : absorb 0 whole = (n, []))
    (hparts : fraction.isSome = true ∨ exponent.isSome = true) :
    numberOfParts negative whole fraction exponent =
      floatOf? negative (absorb n (fraction.getD [])).1 (fractionPower n (fraction.getD []) + exponent.getD 0) := by
  have hexponent : ∀ digits : List Char,
      (0 : Int) - ((digits.length : Int) - (absorb n digits).2.length) = fractionPower n digits := by
    intro digits
    unfold fractionPower
    omega
  unfold numberOfParts
  rw [hwhole]
  dsimp only
  split
  · simp at hparts
  · rw [← hexponent]
    rfl

theorem readExponent_exponentText (power : Int) {rest : List Char} (hrest : ∀ c ∈ rest.head?, c.isDigit = false) :
    readExponent ('e' :: (floatLayout.exponentText power ++ rest)) = some (some power, rest) := by
  have hdigits : ∀ negative, readExponentDigits negative (Nat.toDigits 10 power.natAbs ++ rest) =
      some (if negative then -(power.natAbs : Int) else power.natAbs, rest) := by
    intro negative
    rw [readExponentDigits, spanDigits_append (isDigit_toDigits _) hrest]
    split
    · rename_i heq
      exact absurd (Prod.mk.inj heq).1 Nat.toDigits_ne_nil
    · rename_i heq
      obtain ⟨rfl, rfl⟩ := Prod.mk.inj heq
      rw [valueOf_eq_ofDigitChars (isDigit_toDigits _), Nat.ofDigitChars_ten_toDigits]
  unfold Layout.exponentText
  by_cases hpower : power < 0
  · have hvalue : -(power.natAbs : Int) = power := by omega
    rw [if_pos hpower]
    change (readExponentDigits true (Nat.toDigits 10 power.natAbs ++ rest)).map _ = _
    rw [hdigits, if_pos rfl, hvalue]
    rfl
  · have hvalue : (power.natAbs : Int) = power := by omega
    rw [if_neg hpower]
    change (readExponentDigits false (Nat.toDigits 10 power.natAbs ++ rest)).map _ = _
    rw [hdigits, if_neg (by decide), hvalue]
    rfl

theorem readsAs_positional {whole fraction : List Char} {n : Nat} (hwhole : ∀ c ∈ whole, c.isDigit = true)
    (hne : whole ≠ []) (hzero : whole.head? = some '0' → whole = ['0']) (habsorb : absorb 0 whole = (n, []))
    (hfraction : ∀ c ∈ fraction, c.isDigit = true) (hfractionNe : fraction ≠ []) :
    ReadsAs (whole ++ '.' :: fraction) (absorb n fraction).1 (fractionPower n fraction) := by
  intro negative rest hstops
  have hpoint : ∀ c ∈ ('.' :: (fraction ++ rest)).head?, c.isDigit = false := by simp
  rw [List.append_assoc, List.cons_append]
  rw [readUnsigned_of_parts negative (readWhole_append hwhole hne hzero hpoint)
    (readFraction_append hfraction hfractionNe hstops.head?_isDigit) (readExponent_of_stops hstops)]
  rw [numberOfParts_of_absorb negative habsorb (.inl rfl)]
  simp

theorem readsAs_scientific {c : Char} {fraction : List Char} (power : Int) (hc : c.isDigit = true)
    (hfraction : ∀ c ∈ fraction, c.isDigit = true) :
    ReadsAs ([c] ++ (if fraction.isEmpty then [] else '.' :: fraction) ++ 'e' :: floatLayout.exponentText power)
      (absorb (digitValue c) fraction).1 (fractionPower (digitValue c) fraction + power) := by
  intro negative rest hstops
  have hdigit : ∀ d ∈ [c], d.isDigit = true := by simpa using hc
  have habsorb : absorb 0 [c] = (digitValue c, []) := by
    have hvalue := digitValue_lt hc
    have hlimit : unsignedBound = 18446744073709551616 := rfl
    rw [absorb_cons_of_lt [] (by omega), Nat.mul_zero, Nat.zero_add]
    rfl
  have hexponent := readExponent_exponentText power hstops.head?_isDigit
  have he : ∀ tail : List Char, ∀ d ∈ ('e' :: tail).head?, d.isDigit = false := by simp
  cases fraction with
  | nil =>
      have hwhole := readWhole_append hdigit (by simp) (by simp) (he (floatLayout.exponentText power ++ rest))
      have hnone : readFraction ('e' :: (floatLayout.exponentText power ++ rest)) =
          some (none, 'e' :: (floatLayout.exponentText power ++ rest)) := rfl
      have htext : [c] ++ (if ([] : List Char).isEmpty then [] else ['.']) ++ 'e' :: floatLayout.exponentText power ++
          rest = [c] ++ 'e' :: (floatLayout.exponentText power ++ rest) := by simp
      rw [htext, readUnsigned_of_parts negative hwhole hnone hexponent,
        numberOfParts_of_absorb negative habsorb (.inr rfl)]
      rfl
  | cons d tail =>
      have hpoint : ∀ e ∈ ('.' :: (d :: tail ++ 'e' :: (floatLayout.exponentText power ++ rest))).head?,
          e.isDigit = false := by simp
      have hwhole := readWhole_append hdigit (by simp) (by simp) hpoint
      have hsome := readFraction_append hfraction (by simp) (he (floatLayout.exponentText power ++ rest))
      have htext : [c] ++ (if (d :: tail).isEmpty then [] else '.' :: d :: tail) ++
          'e' :: floatLayout.exponentText power ++ rest =
            [c] ++ '.' :: (d :: tail ++ 'e' :: (floatLayout.exponentText power ++ rest)) := by simp
      rw [htext, readUnsigned_of_parts negative hwhole hsome hexponent,
        numberOfParts_of_absorb negative habsorb (.inr rfl)]
      rfl

/-! ### The digits of a double -/

theorem exists_zeros (digits : List Char) :
    ∃ zeros, (∀ c ∈ zeros, c = '0') ∧ digits = dropTrailingZeros digits ++ zeros := by
  refine ⟨(digits.reverse.takeWhile (· == '0')).reverse, ?_, ?_⟩
  · intro c hc
    have hzero := List.all_takeWhile (p := (· == '0')) (l := digits.reverse)
    rw [List.all_eq_true] at hzero
    simpa using hzero c (List.mem_reverse.1 hc)
  · rw [dropTrailingZeros, ← List.reverse_append, List.takeWhile_append_dropWhile, List.reverse_reverse]

section Digits

variable (x : Binary64)

/-- The digits of the shortest decimal, without zeros at the end. -/
def shortestDigits : List Char := dropTrailingZeros (Nat.toDigits 10 x.shortest.digits)

def shortestPower : Int := x.shortest.exponent + (Nat.toDigits 10 x.shortest.digits).length - 1

variable {x}

theorem isDigit_shortestDigits : ∀ c ∈ shortestDigits x, c.isDigit = true := by
  intro c hc
  obtain ⟨zeros, -, hsplit⟩ := exists_zeros (Nat.toDigits 10 x.shortest.digits)
  refine isDigit_toDigits x.shortest.digits c ?_
  rw [hsplit]
  exact List.mem_append_left _ hc

theorem shortestDigits_ne_nil (hdigits : x.shortest.digits ≠ 0) : shortestDigits x ≠ [] := by
  intro hnil
  obtain ⟨zeros, hzeros, hsplit⟩ := exists_zeros (Nat.toDigits 10 x.shortest.digits)
  obtain ⟨c, tail, hcons⟩ := List.exists_cons_of_ne_nil (Nat.toDigits_ne_nil (n := x.shortest.digits) (b := 10))
  have hall : Nat.toDigits 10 x.shortest.digits = zeros := by
    calc Nat.toDigits 10 x.shortest.digits = shortestDigits x ++ zeros := hsplit
      _ = zeros := by rw [hnil, List.nil_append]
  have hc : c = '0' := hzeros c (by rw [← hall, hcons]; exact List.mem_cons_self)
  exact hdigits (head?_toDigits _ (by rw [hcons, List.head?_cons, hc]))

theorem head?_shortestDigits : (shortestDigits x).head? ≠ some '0' := by
  intro hhead
  obtain ⟨zeros, -, hsplit⟩ := exists_zeros (Nat.toDigits 10 x.shortest.digits)
  obtain ⟨tail, htail⟩ := List.head?_eq_some_iff.1 hhead
  have hcons : Nat.toDigits 10 x.shortest.digits = '0' :: (tail ++ zeros) := by
    calc Nat.toDigits 10 x.shortest.digits = shortestDigits x ++ zeros := hsplit
      _ = '0' :: (tail ++ zeros) := by rw [htail, List.cons_append]
  have hzero := head?_toDigits x.shortest.digits (by rw [hcons, List.head?_cons])
  rw [shortestDigits, hzero] at htail
  exact absurd htail (by simp [dropTrailingZeros])

theorem shortestPower_eq_zero (hx : x.isZero = false) (hdigits : x.shortest.digits = 0) : shortestPower x = 0 := by
  rw [shortestPower, Binary64.exponent_eq_zero_of_digits_eq_zero hx hdigits, hdigits]
  rfl

/-- The first digits of a decimal, at their power of ten, do not go beyond the upper end either. -/
theorem mul_le_upperEnd {significand places : Nat} (hfront : significand * 10 ^ places ≤ x.shortest.digits)
    (hexponent : 0 ≤ x.shortest.exponent + places) :
    significand * 10 ^ (x.shortest.exponent + places).toNat * Binary64.quarterOne ≤ x.upperEnd := by
  have hreaches := Binary64.reaches_shortest x
  unfold Binary64.Reaches at hreaches
  rw [Nat.pow_eq, Nat.pow_eq] at hreaches
  by_cases hsign : 0 ≤ x.shortest.exponent
  · have hdown : (-x.shortest.exponent).toNat = 0 := by omega
    have hup : (x.shortest.exponent + places).toNat = places + x.shortest.exponent.toNat := by omega
    rw [hdown, Nat.pow_zero, Nat.mul_one] at hreaches
    calc significand * 10 ^ (x.shortest.exponent + places).toNat * Binary64.quarterOne
        = significand * 10 ^ places * (Binary64.quarterOne * 10 ^ x.shortest.exponent.toNat) := by
          rw [hup, Nat.pow_add]
          ring
      _ ≤ x.shortest.digits * (Binary64.quarterOne * 10 ^ x.shortest.exponent.toNat) := Nat.mul_le_mul_right _ hfront
      _ ≤ x.upperEnd := hreaches
  · have hup : x.shortest.exponent.toNat = 0 := by omega
    have hplaces : places = (x.shortest.exponent + places).toNat + (-x.shortest.exponent).toNat := by omega
    have hpos : 0 < 10 ^ (-x.shortest.exponent).toNat := Nat.pow_pos (by decide)
    rw [hup, Nat.pow_zero, Nat.mul_one] at hreaches
    refine Nat.le_of_mul_le_mul_right ?_ hpos
    calc significand * 10 ^ (x.shortest.exponent + places).toNat * Binary64.quarterOne *
          10 ^ (-x.shortest.exponent).toNat
        = significand * 10 ^ places * Binary64.quarterOne := by
          rw [hplaces, Nat.pow_add, ← hplaces]
          ring
      _ ≤ x.shortest.digits * Binary64.quarterOne := Nat.mul_le_mul_right _ hfront
      _ ≤ x.upperEnd * 10 ^ (-x.shortest.exponent).toNat := hreaches

end Digits

/-! ### The text of a double -/

/-- A literal of a double and what it is read as, with room for it if the double is not one of the largest. -/
def ReadsWithin (x : Binary64) (text : List Char) : Prop :=
  ∃ significand exponent, ReadsAs text significand exponent ∧ significand < unsignedBound ∧
    (exponent ≤ 0 ∨ significand * 10 ^ exponent.toNat * Binary64.quarterOne ≤ x.upperEnd)

theorem unsignedBound_eq : unsignedBound = 18446744073709551616 := rfl

theorem absorb_of_length_le {whole : List Char} (hwhole : ∀ c ∈ whole, c.isDigit = true) (hlength : whole.length ≤ 16) :
    absorb 0 whole = (Nat.ofDigitChars 10 whole 0, []) := by
  refine absorb_eq_of_lt ?_
  calc Nat.ofDigitChars 10 whole 0 < 10 ^ whole.length := ofDigitChars_lt hwhole
    _ ≤ 10 ^ 16 := Nat.pow_le_pow_right (by decide) hlength
    _ ≤ unsignedBound := by decide

/-- A fraction only makes the exponent smaller, so there is room for a literal without an exponent. -/
theorem readsWithin_positional (x : Binary64) (whole fraction : List Char) (hwhole : ∀ c ∈ whole, c.isDigit = true)
    (hne : whole ≠ []) (hlength : whole.length ≤ 16) (hzero : whole.head? = some '0' → whole = ['0'])
    (hfraction : ∀ c ∈ fraction, c.isDigit = true) (hfractionNe : fraction ≠ []) :
    ReadsWithin x (whole ++ '.' :: fraction) := by
  have habsorb := absorb_of_length_le hwhole hlength
  have hfits : Nat.ofDigitChars 10 whole 0 < unsignedBound := by
    have := absorb_lt (show 0 < unsignedBound by decide) whole
    rwa [habsorb] at this
  exact ⟨_, _, readsAs_positional hwhole hne hzero habsorb hfraction hfractionNe, absorb_lt hfits fraction,
    .inl (fractionPower_le _ fraction)⟩

theorem readsWithin_scientific {x : Binary64} {c : Char} {fraction : List Char}
    (hdigits : shortestDigits x = c :: fraction) :
    ReadsWithin x ([c] ++ (if fraction.isEmpty then [] else '.' :: fraction) ++
      'e' :: floatLayout.exponentText (shortestPower x)) := by
  have hall : ∀ d ∈ c :: fraction, d.isDigit = true := hdigits ▸ isDigit_shortestDigits
  obtain ⟨hc, hfraction⟩ := List.forall_mem_cons.1 hall
  have hfits : digitValue c < unsignedBound := by
    have := digitValue_lt hc
    rw [unsignedBound_eq]
    omega
  refine ⟨_, _, readsAs_scientific (shortestPower x) hc hfraction, absorb_lt hfits fraction, ?_⟩
  obtain ⟨taken, hsplit, hvalue⟩ := exists_taken_absorb (digitValue c) fraction
  obtain ⟨zeros, -, hzeros⟩ := exists_zeros (Nat.toDigits 10 x.shortest.digits)
  -- The digits are those taken, those left over and the zeros that were dropped.
  have htext : Nat.toDigits 10 x.shortest.digits = c :: taken ++ ((absorb (digitValue c) fraction).2 ++ zeros) := by
    calc Nat.toDigits 10 x.shortest.digits = shortestDigits x ++ zeros := hzeros
      _ = c :: (taken ++ (absorb (digitValue c) fraction).2) ++ zeros := by rw [hdigits, ← hsplit]
      _ = c :: taken ++ ((absorb (digitValue c) fraction).2 ++ zeros) := by simp
  have hfront : (absorb (digitValue c) fraction).1 * 10 ^ ((absorb (digitValue c) fraction).2 ++ zeros).length ≤
      x.shortest.digits := by
    have hle := ofDigitChars_mul_le (c :: taken) ((absorb (digitValue c) fraction).2 ++ zeros)
    rw [← htext, Nat.ofDigitChars_ten_toDigits, Nat.ofDigitChars_cons, Nat.mul_zero, Nat.zero_add, ← digitValue_eq,
      ← hvalue] at hle
    exact hle
  have hexponent : fractionPower (digitValue c) fraction + shortestPower x =
      x.shortest.exponent + ((absorb (digitValue c) fraction).2 ++ zeros).length := by
    have hlength := congrArg List.length htext
    have hfractionLength := congrArg List.length hsplit
    simp only [List.length_append, List.length_cons] at hlength hfractionLength
    unfold fractionPower shortestPower
    rw [hlength, List.length_append]
    omega
  rw [hexponent]
  by_cases hsign : x.shortest.exponent + ((absorb (digitValue c) fraction).2 ++ zeros).length ≤ 0
  · exact .inl hsign
  · exact .inr (mul_le_upperEnd hfront (by omega))

theorem isDigit_replicate_zero (n : Nat) : ∀ c ∈ List.replicate n '0', c.isDigit = true := by
  intro c hc
  rw [List.eq_of_mem_replicate hc]
  decide

/-- A magnitude below one has a lone zero before the point. -/
theorem readsWithin_belowOne {x : Binary64} (zeros : Nat) (hne : shortestDigits x ≠ []) :
    ReadsWithin x (['0'] ++ '.' :: (List.replicate zeros '0' ++ shortestDigits x)) := by
  refine readsWithin_positional x ['0'] _ (List.forall_mem_singleton.2 rfl) (by simp) (by decide) (fun _ => rfl) ?_ ?_
  · intro c hc
    exact (List.mem_append.1 hc).elim (isDigit_replicate_zero zeros c) (isDigit_shortestDigits c)
  · exact List.append_ne_nil_of_right_ne_nil _ hne

/-- A magnitude from one on has its first digits before the point, filled up with zeros. -/
theorem readsWithin_fromOne {x : Binary64} {places : Nat} (hplaces : places < 16)
    (hnil : shortestDigits x = [] → places = 0) :
    ReadsWithin x ((shortestDigits x).take (places + 1) ++
      List.replicate (places + 1 - (shortestDigits x).length) '0' ++
        '.' :: (if ((shortestDigits x).drop (places + 1)).isEmpty then ['0']
          else (shortestDigits x).drop (places + 1))) := by
  refine readsWithin_positional x _ _ ?_ ?_ ?_ ?_ ?_ ?_
  · intro c hc
    exact (List.mem_append.1 hc).elim (fun hmem => isDigit_shortestDigits c (List.mem_of_mem_take hmem))
      (isDigit_replicate_zero _ c)
  · intro hwhole
    have hlength := congrArg List.length hwhole
    simp only [List.length_append, List.length_take, List.length_replicate, List.length_nil] at hlength
    omega
  · simp only [List.length_append, List.length_take, List.length_replicate]
    omega
  · intro hhead
    cases hdigits : shortestDigits x with
    | nil =>
        rw [hnil hdigits]
        rfl
    | cons c tail =>
        rw [hdigits] at hhead
        have hc : c = '0' := by simpa using hhead
        exact absurd (by rw [hdigits, hc]; rfl) (head?_shortestDigits (x := x))
  · intro c hc
    split at hc
    · obtain rfl := List.mem_singleton.1 hc
      decide
    · exact isDigit_shortestDigits c (List.mem_of_mem_drop hc)
  · split
    · simp
    · rename_i hfraction
      simpa [List.isEmpty_iff] using hfraction

theorem readsWithin_digitsText {x : Binary64} (hx : x.isZero = false) :
    ReadsWithin x (floatLayout.digitsText (shortestDigits x) (shortestPower x)) := by
  have hne : shortestPower x ≠ 0 → shortestDigits x ≠ [] := fun hpower =>
    shortestDigits_ne_nil fun hdigits => hpower (shortestPower_eq_zero hx hdigits)
  unfold Layout.digitsText
  dsimp only
  by_cases hscientific : (shortestPower x < floatLayout.least || floatLayout.bound ≤ shortestPower x) = true
  · rw [if_pos hscientific]
    have hpower : shortestPower x ≠ 0 := by
      intro hzero
      rw [hzero] at hscientific
      exact absurd hscientific (by decide)
    obtain ⟨c, fraction, hdigits⟩ := List.exists_cons_of_ne_nil (hne hpower)
    have hread := readsWithin_scientific hdigits
    rw [hdigits]
    exact hread
  · rw [if_neg hscientific]
    have hbound : shortestPower x < 16 := by
      simp only [Bool.or_eq_true, decide_eq_true_eq, not_or, not_le] at hscientific
      exact hscientific.2
    by_cases hsmall : shortestPower x < 0
    · rw [if_pos hsmall]
      exact readsWithin_belowOne _ (hne (by omega))
    · rw [if_neg hsmall]
      refine readsWithin_fromOne (by omega) fun hnil => ?_
      by_contra hplaces
      exact hne (by omega) hnil

/-! ### Room for what is read -/

theorem halfLastPlace_pos : 0 < Binary64.halfLastPlace := by
  unfold Binary64.halfLastPlace
  apply Nat.two_pow_pos

theorem hasRoom_of_le {x : Binary64} (hbits : x.bits + 4 ≤ Number.infinityBits) {significand exponent : Nat}
    (hle : significand * 10 ^ exponent * Binary64.quarterOne ≤ x.upperEnd) : HasRoom significand exponent := by
  have hupper := Nat.le_trans hle (Binary64.upperEnd_le hbits)
  have hlimit : (2 ^ 56 - 28) * (2 ^ 53 + 1) ^ 2 < 4 * (2 ^ 54 - 1) * 2 ^ 106 := by decide
  have hfour : 4 * (significand * Nat.pow 10 exponent * one * (2 ^ 53 + 1) ^ 2) < 4 * (overflow * 2 ^ 106) := by
    calc 4 * (significand * Nat.pow 10 exponent * one * (2 ^ 53 + 1) ^ 2)
        = significand * 10 ^ exponent * Binary64.quarterOne * (2 ^ 53 + 1) ^ 2 := by
          rw [Binary64.quarterOne, Nat.pow_eq]
          ring
      _ ≤ (2 ^ 56 - 28) * Binary64.halfLastPlace * (2 ^ 53 + 1) ^ 2 := Nat.mul_le_mul_right _ hupper
      _ = (2 ^ 56 - 28) * (2 ^ 53 + 1) ^ 2 * Binary64.halfLastPlace := by ring
      _ < 4 * (2 ^ 54 - 1) * 2 ^ 106 * Binary64.halfLastPlace := Nat.mul_lt_mul_of_pos_right hlimit halfLastPlace_pos
      _ = 4 * (overflow * 2 ^ 106) := by
          rw [Binary64.overflow]
          ring
  exact Nat.lt_of_mul_lt_mul_left hfour

def magnitudeText (x : Binary64) : List Char :=
  if x.isZero then ['0', '.', '0'] else floatLayout.digitsText (shortestDigits x) (shortestPower x)

theorem text_eq (x : Binary64) : floatLayout.text x = (if x.negative then ['-'] else []) ++ magnitudeText x := by
  unfold Layout.text magnitudeText
  dsimp only
  split <;> rfl

theorem readsWithin_magnitudeText (x : Binary64) : ReadsWithin x (magnitudeText x) := by
  unfold magnitudeText
  cases hx : x.isZero with
  | true =>
      have hdigit : ∀ c ∈ ['0'], c.isDigit = true := List.forall_mem_singleton.2 rfl
      exact readsWithin_positional x ['0'] ['0'] hdigit (by decide) (by decide) (fun _ => rfl) hdigit (by decide)
  | false => exact readsWithin_digitsText hx

def isReadable (x : Binary64) : Bool := (readUnsigned false (magnitudeText x)).isSome

theorem isReadable_of_large {x : Binary64} (hbits : ¬ x.bits + 4 ≤ Number.infinityBits) : isReadable x = true := by
  obtain ⟨negative, bits, hfinite⟩ := x
  have hcases : bits = Number.infinityBits - 1 ∨ bits = Number.infinityBits - 2 ∨ bits = Number.infinityBits - 3 := by
    simp only at hbits
    omega
  rcases hcases with rfl | rfl | rfl <;> cases negative <;> revert hfinite <;> decide +kernel

/-- The text of a magnitude is read as a double, whatever its sign is and whatever stops it. -/
theorem exists_readsAs_magnitudeText (x : Binary64) :
    ∃ significand exponent y, ReadsAs (magnitudeText x) significand exponent ∧ scale? significand exponent = some y := by
  obtain ⟨significand, exponent, hreads, hsignificand, hbound⟩ := readsWithin_magnitudeText x
  refine ⟨significand, exponent, ?_⟩
  by_cases hbits : x.bits + 4 ≤ Number.infinityBits
  · have hroom : 0 ≤ exponent → HasRoom significand exponent.toNat := by
      intro hexponent
      rcases hbound with hsmall | hupper
      · obtain rfl : exponent = 0 := by omega
        exact hasRoom_zero hsignificand
      · exact hasRoom_of_le hbits hupper
    obtain ⟨y, hy⟩ := exists_scale? hsignificand hroom
    exact ⟨y, hreads, hy⟩
  · have hread := isReadable_of_large hbits
    have hstop := hreads false [] stops_nil
    rw [List.append_nil] at hstop
    rw [isReadable, hstop, floatOf?] at hread
    cases hscale : scale? significand exponent with
    | some y => exact ⟨y, hreads, rfl⟩
    | none => simp [hscale] at hread

/-! ### There and back -/

theorem exists_digit_of_readUnsigned {negative : Bool} {cs : List Char} {r : Json × List Char}
    (hread : readUnsigned negative cs = some r) : ∃ c tail, cs = c :: tail ∧ c.isDigit = true := by
  cases cs with
  | nil => simp [readUnsigned, readWhole, spanDigits] at hread
  | cons c tail =>
      refine ⟨c, tail, rfl, ?_⟩
      cases hc : c.isDigit with
      | true => rfl
      | false =>
          rw [readUnsigned_eq_none negative hc] at hread
          exact absurd hread (by simp)

theorem exists_readNumber_text (x : Binary64) :
    ∃ y, ∀ rest, Stops rest → readNumber (floatLayout.text x ++ rest) = some (.float y, rest) := by
  obtain ⟨significand, exponent, y, hreads, hscale⟩ := exists_readsAs_magnitudeText x
  have hunsigned : ∀ negative rest, Stops rest → readUnsigned negative (magnitudeText x ++ rest) =
      some (.float (if negative then y.neg else y), rest) := by
    intro negative rest hstops
    rw [hreads negative rest hstops, floatOf?, hscale]
    rfl
  refine ⟨if x.negative then y.neg else y, fun rest hstops => ?_⟩
  rw [text_eq]
  cases x.negative with
  | true => exact hunsigned true rest hstops
  | false =>
      have hread := hunsigned false rest hstops
      obtain ⟨c, tail, hcons, hdigit⟩ := exists_digit_of_readUnsigned hread
      change readNumber (magnitudeText x ++ rest) = _
      rw [hcons, readNumber_of_digit hdigit, ← hcons]
      exact hread

/-- The double that the text of a double is read as. -/
def reread (x : Binary64) : Binary64 :=
  match readNumber (floatLayout.text x) with
  | some (.float y, _) => y
  | _ => x

theorem readNumber_text (x : Binary64) {rest : List Char} (hstops : Stops rest) :
    readNumber (floatLayout.text x ++ rest) = some (.float (reread x), rest) := by
  obtain ⟨y, hy⟩ := exists_readNumber_text x
  have hself := hy [] stops_nil
  rw [List.append_nil] at hself
  rw [hy rest hstops, reread, hself]

/-- The text of a double is read as the double itself. -/
def Reprints (x : Binary64) : Prop := readNumber (floatLayout.text x) = some (.float x, [])

instance (x : Binary64) : Decidable (Reprints x) := inferInstanceAs (Decidable (_ = _))

theorem reread_eq_self {x : Binary64} (hx : Reprints x) : reread x = x := by
  rw [reread, hx]

theorem reread_eq_self_iff {x : Binary64} : reread x = x ↔ Reprints x := by
  refine ⟨fun hx => ?_, reread_eq_self⟩
  have hread := readNumber_text x stops_nil
  rw [List.append_nil, hx] at hread
  exact hread

end AddressBook.Json
