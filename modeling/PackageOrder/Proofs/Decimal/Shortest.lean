/-
PackageOrder.Proofs.Decimal.Shortest — the shortest decimal of a magnitude is in
range for a reader.

Whatever grid it was found on (`gridHit?_has`), it is not above the upper end of the interval that
rounds to the magnitude (`value_shortest_le`). For all magnitudes but the largest that
end is at most `largestDecimal` (`value_shortest_le_largestDecimal`).
-/
import PackageOrder.Decimal.Shortest
import PackageOrder.Proofs.Decimal.Reading

namespace PackageOrder.Decimal

/-- The number that a decimal writes. -/
def Digits.value (x : Digits) : ℚ :=
  x.digits * 10 ^ x.exponent

theorem Digits.value_trim (fuel : Nat) (x : Digits) : (x.trim fuel).value = x.value := by
  induction fuel generalizing x with
  | zero => rfl
  | succ fuel ih =>
    rw [Digits.trim]
    split
    · rename_i h
      rw [ih, Digits.value, Digits.value, zpow_add₀ (by norm_num), zpow_one]
      have hdiv : x.digits = x.digits / 10 * 10 := by omega
      have hcast : (x.digits : ℚ) = (x.digits / 10 : Nat) * 10 := by exact_mod_cast hdiv
      rw [hcast]
      ring
    · rfl

theorem Interval.bounds_of_has {i : Interval} {scale n : Nat} (h : i.has scale n = true) :
    i.low * scale ≤ n ∧ n ≤ i.high * scale := by
  unfold Interval.has at h
  split at h
  · rw [Bool.and_eq_true, decide_eq_true_eq, decide_eq_true_eq] at h
    exact h
  · rw [Bool.and_eq_true, decide_eq_true_eq, decide_eq_true_eq] at h
    exact ⟨h.1.le, h.2.le⟩

/-! ## Hits -/

/-- How many units a quarter of the last place has, and how many a step of the grid of
`10^p`. -/
def gridUnits (num den : Nat) (p : ℤ) : Nat × Nat :=
  if 0 ≤ p then (num, den * Nat.pow 10 p.toNat) else (num * Nat.pow 10 (-p).toNat, den)

theorem gridUnits_spec (num : Nat) {den : Nat} (hden : 0 < den) (p : ℤ) :
    0 < (gridUnits num den p).2
      ∧ ((gridUnits num den p).1 : ℚ) / (gridUnits num den p).2 * 10 ^ p = num / den := by
  have hdenQ : (den : ℚ) ≠ 0 := by exact_mod_cast hden.ne'
  unfold gridUnits
  split
  · rename_i hp
    obtain ⟨k, rfl⟩ := Int.eq_ofNat_of_zero_le hp
    refine ⟨Nat.mul_pos hden (Nat.pow_pos (by decide)), ?_⟩
    simp only [Int.toNat_natCast, Nat.pow_eq, Nat.cast_mul, Nat.cast_pow, Nat.cast_ofNat,
      zpow_natCast]
    field_simp
  · rename_i hp
    obtain ⟨k, hk⟩ := Int.eq_ofNat_of_zero_le (by omega : 0 ≤ -p)
    have hneg : p = -(k : ℤ) := by omega
    refine ⟨hden, ?_⟩
    simp only [hneg, neg_neg, Int.toNat_natCast, Nat.pow_eq, Nat.cast_mul, Nat.cast_pow,
      Nat.cast_ofNat, zpow_neg, zpow_natCast]
    field_simp

theorem gridUnits_pos {num : Nat} (hnum : 0 < num) (den : Nat) (p : ℤ) :
    0 < (gridUnits num den p).1 := by
  unfold gridUnits
  split
  · exact hnum
  · exact Nat.mul_pos hnum (Nat.pow_pos (by decide))

/-- A hit is a point of the grid in the interval. -/
theorem gridHit?_has {i : Interval} {num den : Nat} {p : ℤ} {x : Digits}
    (h : gridHit? i num den p = some x) : x.exponent = p
      ∧ i.has (gridUnits num den p).1 (x.digits * (gridUnits num den p).2) = true := by
  have hunits : (if 0 ≤ p then (num, den * Nat.pow 10 p.toNat)
      else (num * Nat.pow 10 (-p).toNat, den)) = gridUnits num den p := rfl
  unfold gridHit? at h
  rw [hunits] at h
  dsimp only at h
  split at h
  · rename_i hbelow habove
    split at h
    · cases h
      exact ⟨rfl, hbelow⟩
    · cases h
      exact ⟨rfl, habove⟩
  · rename_i hbelow _
    cases h
    exact ⟨rfl, hbelow⟩
  · rename_i _ habove
    cases h
    exact ⟨rfl, habove⟩
  · cases h

/-- The first hit is one on some grid. -/
theorem exists_gridHit? {i : Interval} {num den : Nat} {width : ℤ} {x : Digits} :
    ∀ {more count : Nat}, firstHit? i num den width more count = some x →
      ∃ p, gridHit? i num den p = some x
  | 0, _, h => by cases h
  | more + 1, count, h => by
      rw [firstHit?, Option.or_eq_some_iff] at h
      rcases h with h | ⟨_, h⟩
      · exact ⟨_, h⟩
      · exact exists_gridHit? h

/-- A hit is not above the upper end of the interval. -/
theorem value_gridHit?_le {i : Interval} {num den : Nat} (hden : 0 < den) {p : ℤ} {x : Digits}
    (h : gridHit? i num den p = some x) : x.value ≤ i.high * (num / den) := by
  obtain ⟨hexp, hhas⟩ := gridHit?_has h
  obtain ⟨hstep, hscale⟩ := gridUnits_spec num hden p
  have hle : (x.digits : ℚ) ≤ i.high * ((gridUnits num den p).1 / (gridUnits num den p).2) := by
    rw [← mul_div_assoc, le_div_iff₀ (by exact_mod_cast hstep)]
    exact_mod_cast (Interval.bounds_of_has hhas).2
  rw [Digits.value, hexp, ← hscale, ← mul_assoc]
  exact mul_le_mul_of_nonneg_right hle (by positivity)

/-- A hit in an interval above zero is not zero. -/
theorem digits_gridHit?_ne_zero {i : Interval} {num den : Nat} (hlow : 0 < i.low)
    (hnum : 0 < num) {p : ℤ} {x : Digits} (h : gridHit? i num den p = some x) :
    x.digits ≠ 0 := by
  intro hzero
  have hle := (Interval.bounds_of_has (gridHit?_has h).2).1
  rw [hzero, Nat.zero_mul] at hle
  exact absurd (Nat.mul_pos hlow (gridUnits_pos hnum den p)) (not_lt.mpr hle)

/-! ## The shortest decimal -/

/-- **The shortest decimal is at most half of the last place above the magnitude.** -/
theorem value_shortest_le (x : Magnitude) :
    x.shortest.value ≤ (x.mantissa + 1 / 2) * 2 ^ x.exponent := by
  have hpos : (0 : ℚ) < 2 ^ x.exponent := by positivity
  have hzero : (0 : ℚ) ≤ (x.mantissa + 1 / 2) * 2 ^ x.exponent := by positivity
  have hnone : (Digits.mk 0 0).value = 0 := by simp [Digits.value]
  rw [Magnitude.shortest]
  split
  · rwa [hnone]
  · obtain ⟨hden, hquarter⟩ := (Magnitude.mk 1 (x.exponent - 2)).value_toRatio
    dsimp only
    generalize (Magnitude.mk 1 (x.exponent - 2)).toRatio.1 = num at hquarter
    generalize (Magnitude.mk 1 (x.exponent - 2)).toRatio.2 = den at hden hquarter
    generalize decimalWidth x.toRatio.1 x.toRatio.2 = width
    rw [Digits.value_trim]
    cases hfound : firstHit? x.interval num den width 17 1 with
    | none => rwa [Option.getD_none, hnone]
    | some found =>
      obtain ⟨p, hit⟩ := exists_gridHit? hfound
      refine (value_gridHit?_le hden hit).trans_eq ?_
      rw [hquarter, Magnitude.value, zpow_sub₀ (by norm_num), Magnitude.interval]
      push_cast
      ring

theorem Digits.trim_ne_zero {x : Digits} (h : x.digits ≠ 0) (fuel : Nat) :
    (x.trim fuel).digits ≠ 0 := by
  induction fuel generalizing x with
  | zero => exact h
  | succ fuel ih =>
    rw [Digits.trim]
    split
    · refine ih ?_
      dsimp only
      omega
    · exact h

/-- The shortest decimal is zero only without a power of ten. -/
theorem exponent_shortest_eq_zero {x : Magnitude} (h : x.shortest.digits = 0) :
    x.shortest.exponent = 0 := by
  unfold Magnitude.shortest at h ⊢
  split at h
  · rename_i hzero
    rw [if_pos hzero]
  · rename_i hzero
    rw [if_neg hzero]
    dsimp only at h ⊢
    have hnum : 0 < (Magnitude.mk 1 (x.exponent - 2)).toRatio.1 := by
      unfold Magnitude.toRatio
      split
      · exact Nat.mul_pos Nat.one_pos (Nat.pow_pos (by decide))
      · exact Nat.one_pos
    have hlow : 0 < x.interval.low := by
      unfold Magnitude.interval
      dsimp only
      split <;> omega
    generalize (Magnitude.mk 1 (x.exponent - 2)).toRatio.1 = num at h hnum
    generalize (Magnitude.mk 1 (x.exponent - 2)).toRatio.2 = den at h
    generalize decimalWidth x.toRatio.1 x.toRatio.2 = width at h
    cases hfound : firstHit? x.interval num den width 17 1 with
    | none => rfl
    | some found =>
      obtain ⟨p, hit⟩ := exists_gridHit? hfound
      rw [hfound] at h
      exact absurd h (Digits.trim_ne_zero (digits_gridHit?_ne_zero hlow hnum hit) 17)

/-- The largest magnitude. -/
def Magnitude.largest : Magnitude := ⟨2 ^ 53 - 1, 971⟩

theorem cast_largestDecimal : (largestDecimal : ℚ) = (2 ^ 53 - 3 / 2) * 2 ^ (971 : ℤ) := by
  have hsplit : (2 : ℚ) ^ (971 : ℤ) = 2 * 2 ^ 970 := by
    rw [show (971 : ℤ) = ((1 + 970 : ℕ) : ℤ) by norm_num, zpow_natCast, pow_add, pow_one]
  rw [hsplit, largestDecimal, Nat.cast_mul, Nat.cast_sub (by decide), Nat.cast_pow, Nat.cast_pow,
    Nat.cast_ofNat, Nat.cast_ofNat]
  generalize (2 : ℚ) ^ 970 = p
  ring

theorem value_shortest_le_largestDecimal {x : Magnitude} (hx : Canonical x)
    (hne : x ≠ .largest) : x.shortest.value ≤ largestDecimal := by
  refine (value_shortest_le x).trans ?_
  rw [cast_largestDecimal]
  by_cases hexp : x.exponent = 971
  · have hmantissa : x.mantissa ≠ 2 ^ 53 - 1 := fun h => hne (by
      obtain ⟨m, e⟩ := x
      cases h
      cases hexp
      rfl)
    have hlt := hx.mantissa_lt
    have hle : x.mantissa + 2 ≤ 2 ^ 53 := by omega
    have hleQ : (x.mantissa : ℚ) + 2 ≤ 2 ^ 53 := by exact_mod_cast hle
    rw [hexp]
    refine mul_le_mul_of_nonneg_right ?_ (by positivity)
    linarith
  · have hle : x.mantissa + 1 ≤ 2 ^ 53 := hx.mantissa_lt
    have hleQ : (x.mantissa : ℚ) + 1 ≤ 2 ^ 53 := by exact_mod_cast hle
    have hexponent := hx.exponent_le
    have hpow : (2 : ℚ) ^ x.exponent ≤ 2 ^ (970 : ℤ) :=
      zpow_le_zpow_right₀ (by norm_num) (by omega)
    calc ((x.mantissa : ℚ) + 1 / 2) * 2 ^ x.exponent
        ≤ (2 ^ 53 - 1 / 2) * 2 ^ (970 : ℤ) := by
          refine mul_le_mul (by linarith) hpow (by positivity) (by norm_num)
      _ ≤ (2 ^ 53 - 3 / 2) * 2 ^ (971 : ℤ) := by
          rw [show (971 : ℤ) = 1 + 970 by norm_num, zpow_add₀ (by norm_num), zpow_one,
            ← mul_assoc]
          refine mul_le_mul_of_nonneg_right (by norm_num) (by positivity)

theorem shortest_largest : Magnitude.largest.shortest = ⟨17976931348623157, 292⟩ := by
  decide +kernel

/-- The shortest decimal of the largest magnitude is above `largestDecimal`, but in
range all the same. -/
theorem exists_ofDecimal_shortest_largest :
    ∃ y, ofDecimal 17976931348623157 292 = some y ∧ Canonical y :=
  ⟨⟨9007199254740991, 971⟩, by decide +kernel, by decide, by decide, by decide⟩

end PackageOrder.Decimal
