import AddressBook.Proofs.Json.Digits
import AddressBook.Proofs.Number.Shortest
/-!
# Room for a double

The double of a literal is found in two steps, and each of them rounds: the significand becomes a double, and that is
multiplied or divided by a power of ten. Dividing always finds a double. Multiplying finds one if the exact product stays
below the overflow by more than the two roundings can add.
-/

namespace AddressBook.Json

open Number (Binary64)
open Number.Binary64 (overflow one)

/-! ### Powers of ten -/

/-- The largest power of ten that is not beyond the largest double. -/
def largestPower : Nat := Nat.pow 10 308

/-- The first power of ten beyond the largest double. -/
def nextPower : Nat := Nat.pow 10 309

theorem largestPower_lt_overflow : largestPower * one < overflow := by decide +kernel

theorem overflow_lt_nextPower : overflow < nextPower * one := by decide +kernel

theorem powerOfTen_le {exponent greater : Nat} (hexponent : exponent ≤ greater) :
    Nat.pow 10 exponent ≤ Nat.pow 10 greater := Nat.pow_le_pow_right (by decide) hexponent

theorem powerOfTen_le_largestPower {exponent : Nat} (hexponent : exponent ≤ 308) :
    Nat.pow 10 exponent ≤ largestPower := by
  unfold largestPower
  apply powerOfTen_le
  exact hexponent

theorem nextPower_le {exponent : Nat} (hexponent : 308 < exponent) : nextPower ≤ Nat.pow 10 exponent := by
  unfold nextPower
  apply powerOfTen_le
  exact hexponent

theorem ofNat?_powerOfTen {exponent : Nat} (hexponent : exponent ≤ 308) :
    Binary64.ofNat? false (Nat.pow 10 exponent) = some (powerOfTen exponent) := by
  have hle := Nat.mul_le_mul_right one (powerOfTen_le_largestPower hexponent)
  have hlt := Nat.lt_of_le_of_lt hle largestPower_lt_overflow
  obtain ⟨x, hx⟩ := Binary64.exists_ofNat? false hlt
  rw [powerOfTen, hx, Option.getD_some]

theorem two_pow_mul_one_le_units_powerOfTen {exponent k : Nat} (hexponent : exponent ≤ 308) (hk : k ≤ exponent) :
    2 ^ k * one ≤ (powerOfTen exponent).units := by
  have hten : 2 ^ k ≤ Nat.pow 10 exponent := by
    calc 2 ^ k ≤ 2 ^ exponent := Nat.pow_le_pow_right (by decide) hk
      _ ≤ Nat.pow 10 exponent := Nat.pow_le_pow_left (by decide) exponent
  exact Binary64.one_mul_le_units_ofNat? hten (ofNat?_powerOfTen hexponent)

theorem one_le_units_powerOfTen {exponent : Nat} (hexponent : exponent ≤ 308) : one ≤ (powerOfTen exponent).units := by
  have hunits := two_pow_mul_one_le_units_powerOfTen hexponent (Nat.zero_le exponent)
  calc one = 2 ^ 0 * one := by rw [Nat.pow_zero, Nat.one_mul]
    _ ≤ (powerOfTen exponent).units := hunits

theorem four_mul_one_le_units_powerOfTen : 4 * one ≤ (powerOfTen 308).units := by
  have hunits := two_pow_mul_one_le_units_powerOfTen (k := 2) (Nat.le_refl 308) (by decide)
  calc 4 * one = 2 ^ 2 * one := by rw [show 2 ^ 2 = 4 by decide]
    _ ≤ (powerOfTen 308).units := hunits

/-! ### Scaling -/

theorem exists_div? {x y : Binary64} (hx : x.units < overflow) (hy : one ≤ y.units) :
    ∃ z, x.div? y = some z ∧ z.units * y.units ≤ 2 * (x.units * one) + y.units := by
  have hpos : 0 < y.units := Nat.lt_of_lt_of_le Binary64.one_pos hy
  have hlt : x.units * one < overflow * y.units := Nat.mul_lt_mul_of_lt_of_le hx hy hpos
  obtain ⟨z, hz⟩ := Binary64.exists_round? (x.negative != y.negative) hpos hlt
  exact ⟨z, hz, Binary64.units_mul_le hpos hz⟩

theorem exists_scaleDown (exponent : Nat) {x : Binary64} (hx : x.units < overflow) :
    ∃ y, scaleDown x exponent = some y := by
  induction exponent using Nat.strongRecOn generalizing x with
  | ind exponent ih =>
      unfold scaleDown
      by_cases hexponent : exponent ≤ 308
      · rw [if_pos hexponent]
        obtain ⟨y, hy, -⟩ := exists_div? hx (one_le_units_powerOfTen hexponent)
        exact ⟨y, hy⟩
      · rw [if_neg hexponent]
        by_cases hzero : x.isZero = true
        · rw [if_pos hzero]
          exact ⟨x, rfl⟩
        · rw [if_neg hzero]
          have hten := four_mul_one_le_units_powerOfTen
          obtain ⟨y, hy, hbound⟩ := exists_div? hx (Nat.le_trans (by omega) hten)
          rw [hy, Option.bind_some]
          refine ih (exponent - 308) (by omega) ?_
          -- Dividing by so large a power of ten makes the number smaller in spite of the rounding.
          have hsmaller : 2 * (y.units * (powerOfTen 308).units) ≤ (x.units + 2) * (powerOfTen 308).units := by
            calc 2 * (y.units * (powerOfTen 308).units) ≤ 2 * (2 * (x.units * one) + (powerOfTen 308).units) :=
                  Nat.mul_le_mul_left 2 hbound
              _ = x.units * (4 * one) + 2 * (powerOfTen 308).units := by ring
              _ ≤ x.units * (powerOfTen 308).units + 2 * (powerOfTen 308).units :=
                  Nat.add_le_add_right (Nat.mul_le_mul_left _ hten) _
              _ = (x.units + 2) * (powerOfTen 308).units := by ring
          have hunits : 2 * y.units ≤ x.units + 2 := by
            rw [← Nat.mul_assoc] at hsmaller
            exact Nat.le_of_mul_le_mul_right hsmaller (Nat.lt_of_lt_of_le (Nat.mul_pos (by decide) Binary64.one_pos) hten)
          have htwo : 2 < overflow := by decide +kernel
          omega

/-- There is room for a significand at a power of ten, in spite of two roundings. -/
def HasRoom (significand exponent : Nat) : Prop :=
  significand * Nat.pow 10 exponent * one * (2 ^ 53 + 1) ^ 2 < overflow * 2 ^ 106

theorem hasRoom_zero {significand : Nat} (hsignificand : significand < unsignedBound) : HasRoom significand 0 := by
  have hlimit : unsignedBound * Nat.pow 10 0 * one * (2 ^ 53 + 1) ^ 2 < overflow * 2 ^ 106 := by decide +kernel
  refine Nat.lt_of_le_of_lt ?_ hlimit
  exact Nat.mul_le_mul_right _ (Nat.mul_le_mul_right _ (Nat.mul_le_mul_right _ hsignificand.le))

theorem HasRoom.eq_zero {significand exponent : Nat} (hroom : HasRoom significand exponent) (hexponent : 308 < exponent) :
    significand = 0 := by
  by_contra hne
  have hlarge : overflow * 2 ^ 106 ≤ significand * Nat.pow 10 exponent * one * (2 ^ 53 + 1) ^ 2 := by
    calc overflow * 2 ^ 106 ≤ nextPower * one * (2 ^ 53 + 1) ^ 2 :=
          Nat.mul_le_mul overflow_lt_nextPower.le (by decide)
      _ ≤ significand * Nat.pow 10 exponent * one * (2 ^ 53 + 1) ^ 2 :=
          Nat.mul_le_mul_right _ (Nat.mul_le_mul_right _
            (Nat.le_trans (nextPower_le hexponent) (Nat.le_mul_of_pos_left _ (Nat.pos_of_ne_zero hne))))
  unfold HasRoom at hroom
  omega

theorem exists_ofNat?_of_lt {significand : Nat} (hsignificand : significand < unsignedBound) :
    ∃ x, Binary64.ofNat? false significand = some x ∧ x.units < overflow ∧
      x.units * 2 ^ 53 ≤ significand * one * (2 ^ 53 + 1) := by
  have hlimit : unsignedBound * one * 2 < overflow := by decide +kernel
  have hle : significand * one ≤ unsignedBound * one := Nat.mul_le_mul_right one hsignificand.le
  obtain ⟨x, hx⟩ := Binary64.exists_ofNat? false (n := significand) (by omega)
  have hunits := Binary64.units_ofNat?_le hx
  exact ⟨x, hx, by omega, hunits⟩

theorem exists_mul?_powerOfTen {significand exponent : Nat} {x : Binary64} (hexponent : exponent ≤ 308)
    (hroom : HasRoom significand exponent) (hx : x.units * 2 ^ 53 ≤ significand * one * (2 ^ 53 + 1)) :
    ∃ y, x.mul? (powerOfTen exponent) = some y := by
  have hpower := Binary64.units_ofNat?_le (ofNat?_powerOfTen hexponent)
  refine Binary64.exists_round? _ Binary64.one_pos ?_
  have hproduct : x.units * (powerOfTen exponent).units * 2 ^ 106 < overflow * one * 2 ^ 106 := by
    calc x.units * (powerOfTen exponent).units * 2 ^ 106
        = x.units * 2 ^ 53 * ((powerOfTen exponent).units * 2 ^ 53) := by ring
      _ ≤ significand * one * (2 ^ 53 + 1) * (Nat.pow 10 exponent * one * (2 ^ 53 + 1)) := Nat.mul_le_mul hx hpower
      _ = significand * Nat.pow 10 exponent * one * (2 ^ 53 + 1) ^ 2 * one := by ring
      _ < overflow * 2 ^ 106 * one := Nat.mul_lt_mul_of_pos_right hroom Binary64.one_pos
      _ = overflow * one * 2 ^ 106 := by ring
  exact Nat.lt_of_mul_lt_mul_right hproduct

theorem exists_scale? {significand : Nat} {exponent : Int} (hsignificand : significand < unsignedBound)
    (hroom : 0 ≤ exponent → HasRoom significand exponent.toNat) : ∃ x, scale? significand exponent = some x := by
  obtain ⟨x, hx, hlt, hunits⟩ := exists_ofNat?_of_lt hsignificand
  rw [scale?, hx, Option.bind_some]
  by_cases hnegative : exponent < 0
  · rw [if_pos hnegative]
    exact exists_scaleDown exponent.natAbs hlt
  · rw [if_neg hnegative]
    have hroom := hroom (by omega)
    by_cases hexponent : exponent ≤ 308
    · rw [if_pos hexponent]
      exact exists_mul?_powerOfTen (by omega) hroom hunits
    · rw [if_neg hexponent]
      obtain rfl := hroom.eq_zero (by omega)
      obtain rfl : x = Binary64.zero := by
        have hzero : Binary64.ofNat? false 0 = some Binary64.zero := by decide +kernel
        exact Option.some.inj (hx.symm.trans hzero)
      exact ⟨Binary64.zero, rfl⟩

end AddressBook.Json
