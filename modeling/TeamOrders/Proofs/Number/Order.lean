import TeamOrders.Number.Double

/-!
# The order of doubles

Doubles are compared by their positions, which are whole numbers, so their order has the laws of whole
numbers wherever a position exists. Rounding never leads out of the numbers: whatever is written in
decimal has a position.
-/

namespace TeamOrders.Double

variable {x y z : Double}

theorem below_iff : x.below y = true ↔
    ∃ a b, x.position = some a ∧ y.position = some b ∧ a < b := by
  unfold below
  cases x.position <;> cases y.position <;> simp

theorem atMost_iff : x.atMost y = true ↔
    ∃ a b, x.position = some a ∧ y.position = some b ∧ a ≤ b := by
  unfold atMost
  cases x.position <;> cases y.position <;> simp

theorem atMost_trans (hxy : x.atMost y = true) (hyz : y.atMost z = true) : x.atMost z = true := by
  obtain ⟨a, b, hx, hy, hab⟩ := atMost_iff.mp hxy
  obtain ⟨b', c, hy', hz, hbc⟩ := atMost_iff.mp hyz
  obtain rfl : b = b' := Option.some.inj (hy.symm.trans hy')
  exact atMost_iff.mpr ⟨a, c, hx, hz, Int.le_trans hab hbc⟩

theorem below_of_below_of_atMost (hxy : x.below y = true) (hyz : y.atMost z = true) :
    x.below z = true := by
  obtain ⟨a, b, hx, hy, hab⟩ := below_iff.mp hxy
  obtain ⟨b', c, hy', hz, hbc⟩ := atMost_iff.mp hyz
  obtain rfl : b = b' := Option.some.inj (hy.symm.trans hy')
  exact below_iff.mpr ⟨a, c, hx, hz, Int.lt_of_lt_of_le hab hbc⟩

theorem below_eq_not_atMost (hx : x.position.isSome = true)
    (hy : y.position.isSome = true) : x.below y = !y.atMost x := by
  obtain ⟨i, hi⟩ := Option.isSome_iff_exists.mp hx
  obtain ⟨j, hj⟩ := Option.isSome_iff_exists.mp hy
  simp only [below, atMost, hi, hj, ← decide_not]
  exact decide_eq_decide.mpr Int.not_le.symm

theorem atMost_of_below (h : x.below y = true) : x.atMost y = true := by
  obtain ⟨i, j, hi, hj, hlt⟩ := below_iff.mp h
  exact atMost_iff.mpr ⟨i, j, hi, hj, Int.le_of_lt hlt⟩

theorem position_of_ne_nan (h : x ≠ nan) : x.position.isSome = true := by
  cases x with
  | finite negative units => cases negative <;> rfl
  | infinite negative => cases negative <;> rfl
  | nan => exact absurd rfl h

theorem position_ofUnits (negative : Bool) (num den : Nat) :
    (ofUnits negative num den).position.isSome = true := by
  unfold ofUnits
  dsimp only
  split
  · cases negative <;> rfl
  · cases negative <;> rfl

theorem position_ofDecimal (negative : Bool) (digits : Nat) (exponent : Int) :
    (ofDecimal negative digits exponent).position.isSome = true := by
  unfold ofDecimal
  split
  · cases negative <;> rfl
  · split
    · cases negative <;> rfl
    · split
      · cases negative <;> rfl
      · split
        · exact position_ofUnits negative _ 1
        · exact position_ofUnits negative _ _

end TeamOrders.Double
