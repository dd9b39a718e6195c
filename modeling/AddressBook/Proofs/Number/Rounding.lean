import AddressBook.Number.Binary64
import Mathlib.Tactic.Linarith
import Mathlib.Tactic.Ring
/-!
# How far rounding goes

What the rounding of a quotient of units to a double can do: it is off by at most half of the last place, so it makes a
number larger by at most one part in `2 ^ 53`; and it finds a double unless the quotient reaches the middle between
the largest double and the next power of two.
-/

namespace AddressBook.Number

/-! ### Whole numbers -/

section Whole

variable {num den : Nat}

theorem div_le_roundHalfEven : num / den ≤ roundHalfEven num den := by
  unfold roundHalfEven
  dsimp only
  split
  · exact Nat.le_refl _
  · split <;> omega

theorem roundHalfEven_le_div_succ : roundHalfEven num den ≤ num / den + 1 := by
  unfold roundHalfEven
  dsimp only
  split
  · omega
  · split <;> omega

theorem two_mul_roundHalfEven_mul_le (num : Nat) {den : Nat} (hden : 0 < den) : 2 * (roundHalfEven num den * den) ≤ 2 * num + den := by
  have hsplit : den * (num / den) + num % den = num := Nat.div_add_mod num den
  have hrest : num % den < den := Nat.mod_lt num hden
  have hcomm : num / den * den = den * (num / den) := Nat.mul_comm _ _
  unfold roundHalfEven
  dsimp only
  split
  · omega
  · split
    · rw [Nat.add_mul]
      omega
    · have hparity : num / den % 2 * den ≤ den := by
        have hbit : num / den % 2 ≤ 1 := by omega
        simpa using Nat.mul_le_mul_right den hbit
      rw [Nat.add_mul]
      omega

/-- A quotient below the middle after a whole number is not rounded beyond it. -/
theorem roundHalfEven_le_of_lt {k : Nat} (hden : 0 < den) (hlt : 2 * num < (2 * k + 1) * den) :
    roundHalfEven num den ≤ k := by
  have herror := two_mul_roundHalfEven_mul_le num hden
  have hbound : 2 * roundHalfEven num den * den < (2 * k + 2) * den := by
    calc 2 * roundHalfEven num den * den = 2 * (roundHalfEven num den * den) := Nat.mul_assoc _ _ _
      _ ≤ 2 * num + den := herror
      _ < (2 * k + 1) * den + den := Nat.add_lt_add_right hlt den
      _ = (2 * k + 2) * den := by ring
  have htwice : 2 * roundHalfEven num den < 2 * k + 2 := Nat.lt_of_mul_lt_mul_right hbound
  omega

end Whole

namespace Binary64

/-! ### The place of a rounded quotient -/

/-- The place that a quotient is rounded at. -/
def roundPlace (num den : Nat) : Nat := (num / den).log2 - 52

/-- The whole number of steps of that place that it is rounded to. -/
def roundSteps (num den : Nat) : Nat := roundHalfEven num (den * 2 ^ roundPlace num den)

section Place

variable {num den : Nat}

theorem roundBits_eq (num den : Nat) : roundBits num den = roundPlace num den * 2 ^ 52 + roundSteps num den := rfl

theorem div_lt_two_pow_roundPlace : num / den < 2 ^ (roundPlace num den + 53) := by
  refine Nat.lt_of_lt_of_le Nat.lt_log2_self (Nat.pow_le_pow_right (by decide) ?_)
  unfold roundPlace
  omega

theorem two_pow_roundPlace_le_div (hplace : 0 < roundPlace num den) : 2 ^ (roundPlace num den + 52) ≤ num / den := by
  have hlog : roundPlace num den + 52 = (num / den).log2 := by
    unfold roundPlace at hplace ⊢
    omega
  have hne : num / den ≠ 0 := by
    intro hzero
    rw [roundPlace, hzero] at hplace
    exact absurd hplace (by decide)
  rw [hlog]
  exact Nat.log2_self_le hne

theorem two_pow_roundPlace_mul_le (hplace : 0 < roundPlace num den) :
    2 ^ roundPlace num den * 2 ^ 52 * den ≤ num := by
  rw [← Nat.pow_add]
  exact Nat.le_trans (Nat.mul_le_mul_right den (two_pow_roundPlace_le_div hplace)) (Nat.div_mul_le_self num den)

theorem roundSteps_le (num den : Nat) : roundSteps num den ≤ 2 ^ 53 := by
  have hquotient : num / (den * 2 ^ roundPlace num den) < 2 ^ 53 := by
    rw [← Nat.div_div_eq_div_mul, Nat.div_lt_iff_lt_mul (Nat.two_pow_pos _), ← Nat.pow_add, Nat.add_comm]
    exact div_lt_two_pow_roundPlace
  exact Nat.le_trans roundHalfEven_le_div_succ hquotient

theorem le_roundSteps (hplace : 0 < roundPlace num den) : 2 ^ 52 ≤ roundSteps num den := by
  have hquotient : 2 ^ 52 ≤ num / (den * 2 ^ roundPlace num den) := by
    rw [← Nat.div_div_eq_div_mul, Nat.le_div_iff_mul_le (Nat.two_pow_pos _), ← Nat.pow_add, Nat.add_comm]
    exact two_pow_roundPlace_le_div hplace
  exact Nat.le_trans hquotient div_le_roundHalfEven

/-- Bits that are built from a place and a number of its steps are worth that many steps. -/
theorem units_of_bits {x : Binary64} {place steps : Nat} (hbits : x.bits = place * 2 ^ 52 + steps)
    (hsteps : steps ≤ 2 ^ 53) (hplace : 0 < place → 2 ^ 52 ≤ steps) : x.units = steps * 2 ^ place := by
  have hpow : Nat.pow 2 52 = 2 ^ 52 := rfl
  unfold units significand lastPlace
  rw [hpow, hbits]
  by_cases hsmall : steps < 2 ^ 52
  · obtain rfl : place = 0 := by omega
    rw [Nat.zero_mul, Nat.zero_add, if_pos hsmall, Nat.div_eq_of_lt hsmall]
    rfl
  · have hlarge : ¬ place * 2 ^ 52 + steps < 2 ^ 52 := by omega
    rw [if_neg hlarge]
    by_cases hlast : steps = 2 ^ 53
    · have hdiv : (place * 2 ^ 52 + steps) / 2 ^ 52 - 1 = place + 1 := by omega
      have hmod : (place * 2 ^ 52 + steps) % 2 ^ 52 = 0 := by omega
      rw [hdiv, hmod, hlast]
      change (2 ^ 52 + 0) * 2 ^ (place + 1) = 2 ^ 53 * 2 ^ place
      rw [Nat.pow_succ 2 place]
      ring
    · have hdiv : (place * 2 ^ 52 + steps) / 2 ^ 52 - 1 = place := by omega
      have hmod : 2 ^ 52 + (place * 2 ^ 52 + steps) % 2 ^ 52 = steps := by omega
      rw [hdiv, hmod]
      rfl

end Place

/-! ### Overflow -/

/-- Half of the last place of the largest double. -/
def halfLastPlace : Nat := 2 ^ 2044

/-- The middle between the largest double and the next power of two, in units. -/
def overflow : Nat := (2 ^ 54 - 1) * halfLastPlace

theorem two_pow_succ {place half : Nat} (hplace : place = half + 1) : 2 ^ place = 2 * 2 ^ half := by
  rw [hplace, Nat.pow_succ, Nat.mul_comm]

theorem four_mul_two_pow_le {place half : Nat} (hplace : half + 1 < place) : 4 * 2 ^ half ≤ 2 ^ place := by
  rw [show 4 * 2 ^ half = 2 ^ (half + 2) by rw [Nat.pow_add, Nat.mul_comm]]
  exact Nat.pow_le_pow_right (by decide) hplace

theorem two_pow_lastPlace {place : Nat} (hplace : place = 2045) : 2 ^ place = 2 * halfLastPlace := by
  unfold halfLastPlace
  apply two_pow_succ
  exact hplace

theorem le_two_pow_of_lastPlace_lt {place : Nat} (hplace : 2045 < place) : 4 * halfLastPlace ≤ 2 ^ place := by
  unfold halfLastPlace
  apply four_mul_two_pow_le
  exact hplace

section Rounding

variable {negative : Bool} {num den : Nat} {x : Binary64}

theorem two_mul_roundSteps_le (num : Nat) {den : Nat} (hden : 0 < den) :
    2 * (roundSteps num den * 2 ^ roundPlace num den * den) ≤ 2 * num + den * 2 ^ roundPlace num den := by
  have herror := two_mul_roundHalfEven_mul_le num (Nat.mul_pos hden (Nat.two_pow_pos (roundPlace num den)))
  calc 2 * (roundSteps num den * 2 ^ roundPlace num den * den)
      = 2 * (roundSteps num den * (den * 2 ^ roundPlace num den)) := by ring
    _ ≤ 2 * num + den * 2 ^ roundPlace num den := herror

theorem roundBits_lt (hden : 0 < den) (hlt : num < overflow * den) : roundBits num den < infinityBits := by
  have hinfinity : infinityBits = 2047 * 2 ^ 52 := rfl
  have hsteps := roundSteps_le num den
  rw [roundBits_eq, hinfinity]
  rcases Nat.lt_trichotomy (roundPlace num den) 2045 with hplace | hplace | hplace
  · omega
  · have hlast : roundSteps num den ≤ 2 ^ 53 - 1 := by
      refine roundHalfEven_le_of_lt (Nat.mul_pos hden (Nat.two_pow_pos _)) ?_
      calc 2 * num < 2 * (overflow * den) := Nat.mul_lt_mul_of_pos_left hlt (by decide)
        _ = (2 * (2 ^ 53 - 1) + 1) * (den * 2 ^ roundPlace num den) := by
          rw [two_pow_lastPlace hplace, overflow]
          ring
    omega
  · exfalso
    have hfits : 2 ^ roundPlace num den * 2 ^ 52 * den ≤ num := two_pow_roundPlace_mul_le (by omega)
    have hreach : overflow * den ≤ 2 ^ roundPlace num den * 2 ^ 52 * den := by
      refine Nat.mul_le_mul_right den ?_
      calc overflow ≤ 2 ^ 54 * halfLastPlace := Nat.mul_le_mul_right _ (Nat.sub_le _ _)
        _ = 4 * halfLastPlace * 2 ^ 52 := by ring
        _ ≤ 2 ^ roundPlace num den * 2 ^ 52 := Nat.mul_le_mul_right _ (le_two_pow_of_lastPlace_lt hplace)
    omega

theorem exists_round? (negative : Bool) (hden : 0 < den) (hlt : num < overflow * den) :
    ∃ x, round? negative num den = some x :=
  ⟨_, dif_pos (roundBits_lt hden hlt)⟩

theorem units_of_round? (hround : round? negative num den = some x) :
    x.units = roundSteps num den * 2 ^ roundPlace num den := by
  unfold round? at hround
  split at hround
  · obtain rfl := Option.some.inj hround
    exact units_of_bits (roundBits_eq num den) (roundSteps_le num den) le_roundSteps
  · exact absurd hround (by simp)

/-! ### Bounds for a rounded quotient -/

/-- Rounding does not double a quotient, but for the smallest ones. -/
theorem units_mul_le (hden : 0 < den) (hround : round? negative num den = some x) : x.units * den ≤ 2 * num + den := by
  have herror := two_mul_roundSteps_le num hden
  rw [units_of_round? hround]
  by_cases hplace : 0 < roundPlace num den
  · have hfits := two_pow_roundPlace_mul_le hplace
    have hstep : den * 2 ^ roundPlace num den ≤ 2 ^ roundPlace num den * 2 ^ 52 * den := by
      calc den * 2 ^ roundPlace num den = 2 ^ roundPlace num den * 1 * den := by ring
        _ ≤ 2 ^ roundPlace num den * 2 ^ 52 * den :=
          Nat.mul_le_mul_right _ (Nat.mul_le_mul_left _ (by decide))
    omega
  · have hzero : roundPlace num den = 0 := by omega
    rw [hzero, Nat.pow_zero, Nat.mul_one] at herror ⊢
    omega

theorem roundPlace_pos (hlarge : 2 ^ 53 ≤ num / den) : 0 < roundPlace num den := by
  have hne : num / den ≠ 0 := by omega
  have hlog : 53 ≤ (num / den).log2 := (Nat.le_log2 hne).2 hlarge
  unfold roundPlace
  omega

/-- Rounding makes a quotient larger by at most one part in `2 ^ 53`. -/
theorem units_mul_two_pow_le (hden : 0 < den) (hlarge : 2 ^ 53 ≤ num / den)
    (hround : round? negative num den = some x) : x.units * den * 2 ^ 53 ≤ num * (2 ^ 53 + 1) := by
  have herror := two_mul_roundSteps_le num hden
  have hfits := two_pow_roundPlace_mul_le (roundPlace_pos hlarge)
  rw [units_of_round? hround]
  calc roundSteps num den * 2 ^ roundPlace num den * den * 2 ^ 53
      = 2 * (roundSteps num den * 2 ^ roundPlace num den * den) * 2 ^ 52 := by ring
    _ ≤ (2 * num + den * 2 ^ roundPlace num den) * 2 ^ 52 := Nat.mul_le_mul_right _ herror
    _ = num * 2 ^ 53 + 2 ^ roundPlace num den * 2 ^ 52 * den := by ring
    _ ≤ num * 2 ^ 53 + num := Nat.add_le_add_left hfits _
    _ = num * (2 ^ 53 + 1) := by ring

theorem two_pow_le_units {k : Nat} (hk : 53 ≤ k) (hlarge : 2 ^ k ≤ num / den)
    (hround : round? negative num den = some x) : 2 ^ k ≤ x.units := by
  have hplace : 0 < roundPlace num den :=
    roundPlace_pos (Nat.le_trans (Nat.pow_le_pow_right (by decide) hk) hlarge)
  have hne : num / den ≠ 0 := Nat.ne_of_gt (Nat.lt_of_lt_of_le (Nat.two_pow_pos k) hlarge)
  have hlog : k ≤ 52 + roundPlace num den := by
    have := (Nat.le_log2 hne).2 hlarge
    unfold roundPlace
    omega
  rw [units_of_round? hround]
  calc 2 ^ k ≤ 2 ^ (52 + roundPlace num den) := Nat.pow_le_pow_right (by decide) hlog
    _ = 2 ^ 52 * 2 ^ roundPlace num den := Nat.pow_add _ _ _
    _ ≤ roundSteps num den * 2 ^ roundPlace num den := Nat.mul_le_mul_right _ (le_roundSteps hplace)

end Rounding

/-! ### Whole numbers as doubles -/

theorem two_pow_mul_pow (k n : Nat) : 2 ^ k * Nat.pow 2 n = 2 ^ (k + n) := (Nat.pow_add 2 k n).symm

theorem two_pow_mul_one (k : Nat) : 2 ^ k * one = 2 ^ (k + 1074) := by
  unfold one
  apply two_pow_mul_pow

theorem two_pow_le_one : 2 ^ 53 ≤ one := by
  rw [← Nat.one_mul one, ← Nat.pow_zero 2, two_pow_mul_one]
  apply Nat.pow_le_pow_right
  · decide
  · omega

theorem one_pos : 0 < one := Nat.lt_of_lt_of_le (Nat.two_pow_pos 53) two_pow_le_one

theorem exists_ofNat? (negative : Bool) {n : Nat} (hn : n * one < overflow) : ∃ x, ofNat? negative n = some x :=
  exists_round? negative Nat.one_pos (by rwa [Nat.mul_one])

/-- The double of a whole number is larger than it by at most one part in `2 ^ 53`. -/
theorem units_ofNat?_le {negative : Bool} {n : Nat} {x : Binary64} (hx : ofNat? negative n = some x) :
    x.units * 2 ^ 53 ≤ n * one * (2 ^ 53 + 1) := by
  have hround : round? negative (n * one) 1 = some x := hx
  rcases Nat.eq_zero_or_pos n with rfl | hn
  · have hzero : x.units = 0 := by
      rw [units_of_round? hround, Nat.zero_mul]
      rfl
    rw [hzero]
    omega
  · have hlarge : 2 ^ 53 ≤ n * one / 1 := by
      rw [Nat.div_one]
      calc 2 ^ 53 ≤ 1 * one := by
            rw [Nat.one_mul]
            exact two_pow_le_one
        _ ≤ n * one := Nat.mul_le_mul_right _ hn
    have hbound := units_mul_two_pow_le Nat.one_pos hlarge hround
    rwa [Nat.mul_one] at hbound

theorem one_mul_le_units_ofNat? {negative : Bool} {n k : Nat} {x : Binary64} (hn : 2 ^ k ≤ n)
    (hx : ofNat? negative n = some x) : 2 ^ k * one ≤ x.units := by
  have hround : round? negative (n * one) 1 = some x := hx
  rw [two_pow_mul_one]
  refine two_pow_le_units (by omega) ?_ hround
  rw [Nat.div_one, ← two_pow_mul_one]
  exact Nat.mul_le_mul_right _ hn

end Binary64

end AddressBook.Number
