import TeamOrders.Number.Decimal
import TeamOrders.Proofs.Number.Order
import Mathlib.Algebra.Order.Group.Nat
import Mathlib.Data.Nat.Log

/-!
# Rounding keeps the order

Quotients are rounded to a grid that grows coarser where they grow larger. Within one grid rounding keeps
the order because rounding to whole numbers does. Between two grids it keeps the order because the power of
two at which the grid changes is a point of both. So a larger count never has a smaller quotient, whatever
positive number it is divided by. Counts below two to the 53 are doubles themselves, and dividing them by
one changes nothing.
-/

namespace TeamOrders.Double

variable {num num' den : Nat}

/-! ### Rounding to whole numbers -/

theorem roundQuotient_mul_right (k : Nat) (hden : 0 < den) : roundQuotient (k * den) den = k := by
  have hlt : compare (2 * (k * den % den)) den = .lt := by
    rw [Nat.mul_mod_left]
    exact Nat.compare_eq_lt.mpr hden
  simp only [roundQuotient, hlt, Nat.mul_div_cancel k hden]

theorem div_le_roundQuotient (num den : Nat) : num / den ≤ roundQuotient num den := by
  unfold roundQuotient
  dsimp only
  split
  · exact Nat.le_refl _
  · exact Nat.le_succ _
  · split
    · exact Nat.le_refl _
    · exact Nat.le_succ _

theorem roundQuotient_le (num den : Nat) : roundQuotient num den ≤ num / den + 1 := by
  unfold roundQuotient
  dsimp only
  split
  · exact Nat.le_succ _
  · exact Nat.le_refl _
  · split
    · exact Nat.le_succ _
    · exact Nat.le_refl _

theorem roundQuotient_mono (h : num ≤ num') : roundQuotient num den ≤ roundQuotient num' den := by
  have hdiv : num / den ≤ num' / den := Nat.div_le_div_right h
  obtain hlt | hsame := Nat.lt_or_eq_of_le hdiv
  · calc roundQuotient num den ≤ num / den + 1 := roundQuotient_le num den
      _ ≤ num' / den := hlt
      _ ≤ roundQuotient num' den := div_le_roundQuotient num' den
  · have hmod : num % den ≤ num' % den := by
      have hnum := Nat.div_add_mod num den
      have hnum' := Nat.div_add_mod num' den
      rw [hsame] at hnum
      omega
    unfold roundQuotient
    rw [hsame]
    dsimp only
    cases hcompare : compare (2 * (num % den)) den with
    | lt => exact div_le_roundQuotient num' den
    | eq =>
      have heq := Nat.compare_eq_eq.mp hcompare
      cases hcompare' : compare (2 * (num' % den)) den with
      | lt =>
        have hlt := Nat.compare_eq_lt.mp hcompare'
        omega
      | eq => exact Nat.le_refl _
      | gt =>
        dsimp only
        split <;> omega
    | gt =>
      have hgt := Nat.compare_eq_gt.mp hcompare
      have hgt' : compare (2 * (num' % den)) den = .gt := Nat.compare_eq_gt.mpr (by omega)
      rw [hgt']

/-! ### Rounding to the grid -/

theorem spacing_eq (units : Nat) : spacing units = 2 ^ (units.log2 - 52) := by
  unfold spacing
  split
  · rename_i hsmall
    have hlog : units.log2 ≤ 52 := by
      by_cases hzero : units = 0
      · rw [hzero, Nat.log2_zero]
        omega
      · exact Nat.lt_succ_iff.mp ((Nat.log2_lt hzero).mpr hsmall)
    rw [Nat.sub_eq_zero_of_le hlog, Nat.pow_zero]
  · rfl

theorem spacing_pos (units : Nat) : 0 < spacing units := by
  rw [spacing_eq]
  exact Nat.two_pow_pos _

def rounded (num den : Nat) : Nat :=
  roundQuotient num (den * spacing (num / den)) * spacing (num / den)

/-- Where the grid changes, what lies below is rounded to what lies above or less. -/
theorem rounded_mono (hden : 0 < den) (h : num ≤ num') : rounded num den ≤ rounded num' den := by
  have hdiv : num / den ≤ num' / den := Nat.div_le_div_right h
  unfold rounded
  rw [spacing_eq, spacing_eq]
  have hlog : (num / den).log2 - 52 ≤ (num' / den).log2 - 52 := by
    rw [Nat.log2_eq_log_two, Nat.log2_eq_log_two]
    exact Nat.sub_le_sub_right (Nat.log_mono_right hdiv) 52
  generalize hexp : (num / den).log2 - 52 = exp at hlog ⊢
  generalize hexp' : (num' / den).log2 - 52 = exp' at hlog ⊢
  obtain hlt | rfl := Nat.lt_or_eq_of_le hlog
  · have hstep : 0 < den * 2 ^ exp := Nat.mul_pos hden (Nat.two_pow_pos exp)
    have hstep' : 0 < den * 2 ^ exp' := Nat.mul_pos hden (Nat.two_pow_pos exp')
    have hbelow : num ≤ 2 ^ 53 * (den * 2 ^ exp) := by
      have hquotient : num / den < 2 ^ (53 + exp) := by
        refine Nat.lt_of_lt_of_le Nat.lt_log2_self (Nat.pow_le_pow_right Nat.two_pos ?_)
        omega
      have hnum := (Nat.div_lt_iff_lt_mul hden).mp hquotient
      rw [Nat.pow_add, Nat.mul_assoc, Nat.mul_comm (2 ^ exp)] at hnum
      exact Nat.le_of_lt hnum
    have habove : 2 ^ 52 * (den * 2 ^ exp') ≤ num' := by
      have hquotient : 2 ^ (52 + exp') ≤ num' / den := by
        have hne : num' / den ≠ 0 := by
          intro hzero
          rw [hzero, Nat.log2_zero] at hexp'
          omega
        refine Nat.le_trans (Nat.pow_le_pow_right Nat.two_pos ?_) (Nat.log2_self_le hne)
        omega
      have hnum := (Nat.le_div_iff_mul_le hden).mp hquotient
      rwa [Nat.pow_add, Nat.mul_assoc, Nat.mul_comm (2 ^ exp')] at hnum
    calc roundQuotient num (den * 2 ^ exp) * 2 ^ exp
        ≤ roundQuotient (2 ^ 53 * (den * 2 ^ exp)) (den * 2 ^ exp) * 2 ^ exp :=
          Nat.mul_le_mul_right _ (roundQuotient_mono hbelow)
      _ = 2 ^ (53 + exp) := by rw [roundQuotient_mul_right _ hstep, Nat.pow_add]
      _ ≤ 2 ^ (52 + exp') := Nat.pow_le_pow_right Nat.two_pos (by omega)
      _ = roundQuotient (2 ^ 52 * (den * 2 ^ exp')) (den * 2 ^ exp') * 2 ^ exp' := by
          rw [roundQuotient_mul_right _ hstep', Nat.pow_add]
      _ ≤ roundQuotient num' (den * 2 ^ exp') * 2 ^ exp' :=
          Nat.mul_le_mul_right _ (roundQuotient_mono habove)
  · exact Nat.mul_le_mul_right _ (roundQuotient_mono h)

theorem rounded_mul_right {units : Nat} (hden : 0 < den) (hgrid : spacing units ∣ units) :
    rounded (units * den) den = units := by
  obtain ⟨k, hk⟩ := hgrid
  have hmul : units * den = k * (den * spacing units) := by
    rw [Nat.mul_left_comm, Nat.mul_comm k, ← hk, Nat.mul_comm]
  rw [rounded, Nat.mul_div_cancel units hden, hmul,
    roundQuotient_mul_right k (Nat.mul_pos hden (spacing_pos units)), Nat.mul_comm, ← hk]

/-! ### Quotients of counts -/

theorem ofUnits_eq (negative : Bool) (num den : Nat) : ofUnits negative num den =
    if rounded num den < overflow then finite negative (rounded num den) else infinite negative := rfl

theorem position_ofUnits_false (num den : Nat) :
    (ofUnits false num den).position = some ((min (rounded num den) overflow : Nat) : Int) := by
  rw [ofUnits_eq]
  split
  · rename_i hlt
    rw [Nat.min_eq_left (Nat.le_of_lt hlt)]
    rfl
  · rename_i hge
    rw [Nat.min_eq_right (Nat.le_of_not_lt hge)]
    rfl

theorem div_finite {units divisor : Nat} (hdivisor : 0 < divisor) :
    (finite false units).div (finite false divisor) = ofUnits false (units * unitsPerOne) divisor :=
  if_neg (Nat.ne_of_gt hdivisor)

theorem eq_of_positive {x : Double} (positive : zero.below x = true) :
    (∃ units, 0 < units ∧ x = finite false units) ∨ x = infinite false := by
  obtain ⟨a, b, ha, hb, hlt⟩ := below_iff.mp positive
  obtain rfl : 0 = a := Option.some.inj ha
  cases x with
  | finite negative units =>
    cases negative with
    | false =>
      obtain rfl : (units : Int) = b := Option.some.inj hb
      exact .inl ⟨units, Int.natCast_pos.mp hlt, rfl⟩
    | true =>
      obtain rfl : -(units : Int) = b := Option.some.inj hb
      omega
  | infinite negative =>
    cases negative with
    | false => exact .inr rfl
    | true =>
      obtain rfl : -(overflow : Int) = b := Option.some.inj hb
      omega
  | nan => cases hb

theorem ofUnits_ne_nan (negative : Bool) (num den : Nat) : ofUnits negative num den ≠ nan := by
  rw [ofUnits_eq]
  split <;> exact Double.noConfusion

theorem div_ne_nan {x : Double} (positive : zero.below x = true) (hfinite : x.isFinite = true)
    (n : Nat) : (ofNat n).div x ≠ nan := by
  obtain ⟨divisor, hdivisor, rfl⟩ | rfl := eq_of_positive positive
  · rw [ofNat, ofQuotient, ofUnits_eq]
    split
    · rw [div_finite hdivisor]
      exact ofUnits_ne_nan _ _ _
    · exact Double.noConfusion
  · cases hfinite

theorem atMost_of_position {x y : Double} {a b : Int} (hx : x.position = some a)
    (hy : y.position = some b) (h : a ≤ b) : x.atMost y = true :=
  atMost_iff.mpr ⟨a, b, hx, hy, h⟩

/-- A larger count has no smaller quotient by a positive number. -/
theorem atMost_div {m n : Nat} {x : Double} (positive : zero.below x = true) (h : m ≤ n)
    (hm : (ofNat m).div x ≠ nan) (hn : (ofNat n).div x ≠ nan) :
    ((ofNat m).div x).atMost ((ofNat n).div x) = true := by
  have hrounded : rounded (m * unitsPerOne) 1 ≤ rounded (n * unitsPerOne) 1 :=
    rounded_mono Nat.one_pos (Nat.mul_le_mul_right _ h)
  rw [ofNat, ofQuotient, ofUnits_eq] at hm hn ⊢
  rw [ofNat, ofQuotient, ofUnits_eq]
  obtain ⟨divisor, hdivisor, rfl⟩ | rfl := eq_of_positive positive
  · by_cases hlarge : rounded (n * unitsPerOne) 1 < overflow
    · rw [if_pos hlarge, if_pos (Nat.lt_of_le_of_lt hrounded hlarge), div_finite hdivisor,
        div_finite hdivisor]
      apply atMost_of_position (position_ofUnits_false _ _) (position_ofUnits_false _ _)
      have hquotient := rounded_mono hdivisor (Nat.mul_le_mul_right unitsPerOne hrounded)
      omega
    · rw [if_neg hlarge]
      split
      · rw [div_finite hdivisor]
        apply atMost_of_position (position_ofUnits_false _ _) (b := overflow) rfl
        omega
      · exact atMost_of_position (a := overflow) rfl rfl (Int.le_refl _)
  · by_cases hlarge : rounded (n * unitsPerOne) 1 < overflow
    · rw [if_pos hlarge, if_pos (Nat.lt_of_le_of_lt hrounded hlarge)]
      exact atMost_of_position (a := 0) rfl rfl (Int.le_refl 0)
    · rw [if_neg hlarge] at hn
      exact absurd rfl hn

/-! ### Counts that are doubles -/

variable {m n : Nat}

theorem exists_places : ∃ places, unitsPerOne = 2 ^ places ∧ overflow = 2 ^ (places + 1024) :=
  ⟨unitPlaces, by decide +kernel, by decide +kernel⟩

theorem unitsPerOne_pos : 0 < unitsPerOne := by
  obtain ⟨places, hunits, -⟩ := exists_places
  rw [hunits]
  exact Nat.two_pow_pos places

theorem spacing_dvd (h : n < 2 ^ 53) : spacing (n * unitsPerOne) ∣ n * unitsPerOne := by
  obtain ⟨places, hunits, -⟩ := exists_places
  have hlog : (n * unitsPerOne).log2 - 52 ≤ places := by
    by_cases hzero : n * unitsPerOne = 0
    · rw [hzero, Nat.log2_zero]
      omega
    · have hlt : n * unitsPerOne < 2 ^ (53 + places) := by
        rw [hunits, Nat.pow_add]
        exact Nat.mul_lt_mul_of_pos_right h (Nat.two_pow_pos places)
      have hlog := (Nat.log2_lt hzero).mpr hlt
      omega
  rw [spacing_eq]
  generalize (n * unitsPerOne).log2 - 52 = exp at hlog ⊢
  rw [hunits]
  exact Nat.dvd_mul_left_of_dvd (Nat.pow_dvd_pow 2 hlog) n

theorem mul_unitsPerOne_lt_overflow (h : n < 2 ^ 53) : n * unitsPerOne < overflow := by
  obtain ⟨places, hunits, hoverflow⟩ := exists_places
  calc n * unitsPerOne < 2 ^ 53 * 2 ^ places := by
        rw [hunits]
        exact Nat.mul_lt_mul_of_pos_right h (Nat.two_pow_pos places)
    _ = 2 ^ (53 + places) := (Nat.pow_add 2 53 places).symm
    _ ≤ overflow := by
        rw [hoverflow]
        exact Nat.pow_le_pow_right Nat.two_pos (by omega)

theorem ofUnits_mul_right {units : Nat} (hden : 0 < den) (hgrid : spacing units ∣ units)
    (hlt : units < overflow) : ofUnits false (units * den) den = finite false units := by
  rw [ofUnits_eq, rounded_mul_right hden hgrid, if_pos hlt]

theorem ofNat_eq_finite (h : n < 2 ^ 53) : ofNat n = finite false (n * unitsPerOne) := by
  rw [ofNat, ofQuotient]
  have hexact := ofUnits_mul_right Nat.one_pos (spacing_dvd h) (mul_unitsPerOne_lt_overflow h)
  rwa [Nat.mul_one] at hexact

theorem one_eq_finite : one = finite false unitsPerOne := by
  rw [one, ofNat_eq_finite (by decide), Nat.one_mul]

theorem zero_below_one : zero.below one = true := by
  rw [one_eq_finite]
  exact below_iff.mpr ⟨0, unitsPerOne, rfl, rfl, Int.natCast_pos.mpr unitsPerOne_pos⟩

theorem isFinite_one : one.isFinite = true := by
  rw [one_eq_finite]
  rfl

theorem ofNat_div_one (h : n < 2 ^ 53) : (ofNat n).div one = ofNat n := by
  rw [one_eq_finite, ofNat_eq_finite h, div_finite unitsPerOne_pos,
    ofUnits_mul_right unitsPerOne_pos (spacing_dvd h) (mul_unitsPerOne_lt_overflow h)]

theorem position_ofNat (h : n < 2 ^ 53) :
    (ofNat n).position = some ((n * unitsPerOne : Nat) : Int) := by
  rw [ofNat_eq_finite h]
  rfl

theorem le_of_atMost_ofNat (hm : m < 2 ^ 53) (hn : n < 2 ^ 53)
    (h : (ofNat m).atMost (ofNat n) = true) : m ≤ n := by
  obtain ⟨a, b, ha, hb, hle⟩ := atMost_iff.mp h
  rw [position_ofNat hm, Option.some.injEq] at ha
  rw [position_ofNat hn, Option.some.injEq] at hb
  have hunits : m * unitsPerOne ≤ n * unitsPerOne := by omega
  exact Nat.le_of_mul_le_mul_right hunits unitsPerOne_pos

theorem lt_of_below_ofNat (hm : m < 2 ^ 53) (hn : n < 2 ^ 53)
    (h : (ofNat m).below (ofNat n) = true) : m < n := by
  obtain ⟨a, b, ha, hb, hlt⟩ := below_iff.mp h
  rw [position_ofNat hm, Option.some.injEq] at ha
  rw [position_ofNat hn, Option.some.injEq] at hb
  have hunits : m * unitsPerOne < n * unitsPerOne := by omega
  exact Nat.lt_of_mul_lt_mul_right hunits

end TeamOrders.Double
