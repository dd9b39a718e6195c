import AddressBook.Number.Shortest
import AddressBook.Proofs.Number.Rounding
/-!
# How large the shortest decimal is

The shortest decimal of a double is a hit on one of the grids, so it does not go beyond the upper end of the interval
that rounds to the double. Only the search that finds no hit at all answers with zero.
-/

namespace AddressBook.Number.Binary64

variable {x : Binary64}

theorem roundsHere_le {num den : Nat} (hhit : x.roundsHere num den = true) : num ≤ x.upperEnd * den := by
  unfold roundsHere at hhit
  split at hhit
  · simp only [Bool.and_eq_true, decide_eq_true_eq] at hhit
    exact hhit.2
  · simp only [Bool.and_eq_true, decide_eq_true_eq] at hhit
    exact hhit.2.le

/-- A decimal does not go beyond the upper end of the interval of a double. -/
def Reaches (x : Binary64) (decimal : Decimal) : Prop :=
  decimal.digits * (quarterOne * Nat.pow 10 decimal.exponent.toNat) ≤ x.upperEnd * Nat.pow 10 (-decimal.exponent).toNat

/-- A grid point that is found is one of the two neighbours, and it rounds to the number. -/
theorem roundsHere_of_onGrid? {power : Int} {decimal : Decimal} (hgrid : x.onGrid? power = some decimal) :
    decimal.exponent = power ∧
      x.roundsHere (decimal.digits * (quarterOne * Nat.pow 10 power.toNat)) (Nat.pow 10 (-power).toNat) = true := by
  unfold onGrid? at hgrid
  dsimp only at hgrid
  split at hgrid
  · rename_i hbelow
    obtain rfl := Option.some.inj hgrid
    exact ⟨rfl, (Bool.and_eq_true _ _ ▸ hbelow).1⟩
  · split at hgrid
    · rename_i habove
      obtain rfl := Option.some.inj hgrid
      exact ⟨rfl, habove⟩
    · exact absurd hgrid (by simp)

theorem reaches_of_onGrid? {power : Int} {decimal : Decimal} (hgrid : x.onGrid? power = some decimal) :
    x.Reaches decimal := by
  obtain ⟨rfl, hhit⟩ := roundsHere_of_onGrid? hgrid
  exact roundsHere_le hhit

theorem lowerEnd_pos (hx : x.isZero = false) : 0 < x.lowerEnd := by
  have hbits : x.bits ≠ 0 := by simpa [isZero] using hx
  have hsignificand : 0 < x.significand := by
    unfold significand
    split
    · omega
    · exact Nat.add_pos_left (by decide) _
  have hstep : 0 < Nat.pow 2 x.lastPlace := Nat.two_pow_pos _
  have hunits : Nat.pow 2 x.lastPlace ≤ x.units := Nat.le_mul_of_pos_left _ hsignificand
  unfold lowerEnd quarters
  split <;> omega

theorem digits_pos_of_onGrid? {power : Int} {decimal : Decimal} (hx : x.isZero = false)
    (hgrid : x.onGrid? power = some decimal) : 0 < decimal.digits := by
  obtain ⟨-, hhit⟩ := roundsHere_of_onGrid? hgrid
  have hlower : 0 < x.lowerEnd * Nat.pow 10 (-power).toNat :=
    Nat.mul_pos (lowerEnd_pos hx) (Nat.pow_pos (by decide))
  refine Nat.pos_of_ne_zero fun hzero => ?_
  rw [hzero, Nat.zero_mul] at hhit
  unfold roundsHere at hhit
  split at hhit
  · simp only [Bool.and_eq_true, decide_eq_true_eq] at hhit
    omega
  · simp only [Bool.and_eq_true, decide_eq_true_eq] at hhit
    omega

/-- The search ends with a point of a grid, or with zero. -/
theorem firstGrid_cases (x : Binary64) (power : Int) (fuel : Nat) :
    (∃ grid, x.onGrid? grid = some (x.firstGrid power fuel)) ∨
      x.firstGrid power fuel = { digits := 0, exponent := 0 } := by
  induction fuel generalizing power with
  | zero => exact .inr rfl
  | succ fuel ih =>
      rw [firstGrid]
      cases hgrid : x.onGrid? power with
      | some decimal => exact .inl ⟨power, hgrid⟩
      | none => exact ih (power - 1)

theorem reaches_shortest (x : Binary64) : x.Reaches x.shortest := by
  rcases firstGrid_cases x x.leadingPower 17 with ⟨grid, hgrid⟩ | hzero
  · exact reaches_of_onGrid? hgrid
  · rw [shortest, hzero, Reaches, Nat.zero_mul]
    exact Nat.zero_le _

theorem exponent_eq_zero_of_digits_eq_zero (hx : x.isZero = false) (hdigits : x.shortest.digits = 0) :
    x.shortest.exponent = 0 := by
  rcases firstGrid_cases x x.leadingPower 17 with ⟨grid, hgrid⟩ | hzero
  · have hpos : 0 < x.shortest.digits := digits_pos_of_onGrid? hx hgrid
    omega
  · rw [shortest, hzero]

/-! ### The upper end -/

theorem upperEnd_eq (x : Binary64) : x.upperEnd = (4 * x.significand + 2) * 2 ^ x.lastPlace := by
  unfold upperEnd quarters units
  rw [Nat.pow_eq]
  ring

theorem two_pow_le_halfLastPlace {place : Nat} (hplace : place ≤ 2044) : 2 ^ place ≤ halfLastPlace := by
  unfold halfLastPlace
  apply Nat.pow_le_pow_right
  · decide
  · exact hplace

/-- But for the three largest doubles, the upper end stays well below the middle to the next power of two. -/
theorem upperEnd_le (hbits : x.bits + 4 ≤ infinityBits) : x.upperEnd ≤ (2 ^ 56 - 28) * halfLastPlace := by
  have hinfinity : infinityBits = 2047 * 2 ^ 52 := rfl
  have hpow : Nat.pow 2 52 = 2 ^ 52 := rfl
  rw [upperEnd_eq]
  by_cases hlast : x.lastPlace = 2045
  · have hsignificand : x.significand ≤ 2 ^ 53 - 4 := by
      unfold lastPlace at hlast
      unfold significand
      rw [hpow] at hlast ⊢
      split <;> omega
    rw [two_pow_lastPlace hlast, ← Nat.mul_assoc]
    exact Nat.mul_le_mul_right _ (by omega)
  · have hplace : x.lastPlace ≤ 2044 := by
      unfold lastPlace at hlast ⊢
      rw [hpow] at hlast ⊢
      omega
    have hsignificand : x.significand < 2 ^ 53 := by
      unfold significand
      rw [hpow]
      split <;> omega
    exact Nat.mul_le_mul (by omega) (two_pow_le_halfLastPlace hplace)

end AddressBook.Number.Binary64
