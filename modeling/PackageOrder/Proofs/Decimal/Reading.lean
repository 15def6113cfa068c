/-
PackageOrder.Proofs.Decimal.Reading — which decimals are read as a magnitude.

`ofDecimal` scales a significand of 64 bits by a power of ten. Divided, every
significand is in range, however far it is divided: three divisions take the largest
to zero. Multiplied, it is in range if the decimal is not above `largestDecimal`, which
the largest decimals with each power of ten show (`powerRow_eq_true`), because rounding
keeps their order.
-/
import PackageOrder.Proofs.Decimal.Nearest

namespace PackageOrder.Decimal

/-! ## Products and quotients -/

theorem Magnitude.value_nonneg (x : Magnitude) : 0 ≤ x.value :=
  mul_nonneg (Nat.cast_nonneg _) (by positivity)

theorem canonical_zero : Canonical .zero :=
  ⟨by decide, by decide, by decide⟩

variable {x y : Magnitude}

/-- A product below the limit is in range. -/
theorem exists_mul? (h : x.value * y.value < limit) :
    ∃ z, x.mul? y = some z ∧ Canonical z := by
  obtain ⟨hb, hx⟩ := x.value_toRatio
  obtain ⟨hd, hy⟩ := y.value_toRatio
  have hvalue : ((x.toRatio.1 * y.toRatio.1 : Nat) : ℚ) / (x.toRatio.2 * y.toRatio.2 : Nat)
      = x.value * y.value := by
    push_cast
    rw [← hx, ← hy, div_mul_div_comm]
  obtain ⟨z, hz⟩ := exists_nearest (Nat.mul_pos hb hd) (hvalue.trans_lt h)
  exact ⟨z, hz, canonical_nearest (Nat.mul_pos hb hd) hz⟩

theorem canonical_mul? {z : Magnitude} (h : x.mul? y = some z) : Canonical z :=
  canonical_nearest (Nat.mul_pos x.value_toRatio.1 y.value_toRatio.1) h

/-- A quotient is that of the values, rounded. -/
theorem div?_eq (hy : 0 < y.value) :
    ∃ num den : Nat, 0 < den ∧ (num : ℚ) / den = x.value / y.value
      ∧ x.div? y = nearest num den := by
  obtain ⟨hb, hx⟩ := x.value_toRatio
  obtain ⟨hd, hvalue⟩ := y.value_toRatio
  have hc : 0 < y.toRatio.1 := by
    refine Nat.pos_of_ne_zero fun hzero => ?_
    rw [hzero] at hvalue
    simp only [Nat.cast_zero, zero_div] at hvalue
    exact absurd hvalue hy.ne
  refine ⟨x.toRatio.1 * y.toRatio.2, x.toRatio.2 * y.toRatio.1, Nat.mul_pos hb hc, ?_, rfl⟩
  push_cast
  rw [← hx, ← hvalue, div_div_div_eq]

/-! ## Powers of ten -/

/-- No decimal above this one is read, except for the last ones before the limit. -/
def largestDecimal : Nat := (2 ^ 54 - 3) * 2 ^ 970

/-- The largest significand that is read with a power of ten. -/
def largestSignificand (k : Nat) : Nat :=
  min (2 ^ 64 - 1) (largestDecimal / 10 ^ k)

/-- The limit of what is rounded, which is an integer. -/
def wholeLimit : Nat := (2 ^ 54 - 1) * 2 ^ 970

theorem cast_wholeLimit : (wholeLimit : ℚ) = limit := by
  rw [wholeLimit, limit, Nat.cast_mul, Nat.cast_sub (by decide), Nat.cast_pow, Nat.cast_pow,
    Nat.cast_ofNat, Nat.cast_one]

/-- Whether a power of ten is at least one, and its product with the largest
significand below the limit. -/
def powerRow (k : Nat) : Bool :=
  (powerOfTen? k).any fun p => (nearest (largestSignificand k) 1).any fun x =>
    p.toRatio.2 ≤ p.toRatio.1
      && p.toRatio.1 * x.toRatio.1 < wholeLimit * (p.toRatio.2 * x.toRatio.2)

theorem powerRow_eq_true : ∀ k ≤ 308, powerRow k = true := by
  decide +kernel

theorem powerOfTen?_spec {k : Nat} (hk : k ≤ 308) :
    ∃ p x, powerOfTen? k = some p ∧ nearest (largestSignificand k) 1 = some x
      ∧ 1 ≤ p.value ∧ p.value * x.value < limit := by
  obtain ⟨p, hp, hrow⟩ := (Option.any_eq_true _ _).mp (powerRow_eq_true k hk)
  obtain ⟨x, hx, hrow⟩ := (Option.any_eq_true _ _).mp hrow
  obtain ⟨hb, hpvalue⟩ := p.value_toRatio
  obtain ⟨hd, hxvalue⟩ := x.value_toRatio
  rw [Bool.and_eq_true, decide_eq_true_eq, decide_eq_true_eq] at hrow
  have hbQ : (0 : ℚ) < p.toRatio.2 := by exact_mod_cast hb
  have hdQ : (0 : ℚ) < x.toRatio.2 := by exact_mod_cast hd
  refine ⟨p, x, hp, hx, ?_, ?_⟩
  · rw [← hpvalue, le_div_iff₀ hbQ, one_mul]
    exact_mod_cast hrow.1
  · rw [← hpvalue, ← hxvalue, div_mul_div_comm, div_lt_iff₀ (mul_pos hbQ hdQ),
      ← cast_wholeLimit]
    exact_mod_cast hrow.2

/-- The last power of ten is at least `2^1023`. -/
theorem powerOfTen?_last :
    ∃ p, powerOfTen? 308 = some p ∧ (2 : ℚ) ^ (1023 : ℤ) ≤ p.value := by
  refine ⟨⟨5010420900022432, 971⟩, by decide +kernel, ?_⟩
  rw [Magnitude.value, show (1023 : ℤ) = 52 + 971 by norm_num, zpow_add₀ (by norm_num)]
  refine mul_le_mul_of_nonneg_right ?_ (by positivity)
  norm_num

/-! ## Divisions -/

theorem one_lt_limit : (2 : ℚ) ^ (64 : ℤ) < limit := by
  have hpow : (1 : ℚ) ≤ 2 ^ (971 : ℤ) := one_le_zpow₀ (by norm_num) (by norm_num)
  rw [limit_eq]
  calc (2 : ℚ) ^ (64 : ℤ) < (2 ^ 53 - 1 / 2) * 2 ^ (12 : ℤ) := by norm_num
    _ ≤ (2 ^ 53 - 1 / 2) * 2 ^ (971 : ℤ) :=
      mul_le_mul_of_nonneg_left (zpow_le_zpow_right₀ (by norm_num) (by norm_num)) (by norm_num)

/-- What is not above `2^64` can be divided by a power of ten. -/
theorem exists_div? {k : Nat} (hk : k ≤ 308) (hx : x.value ≤ 2 ^ (64 : ℤ)) :
    ∃ p, powerOfTen? k = some p ∧ ∃ z, x.div? p = some z ∧ Canonical z := by
  obtain ⟨p, _, hp, _, hone, _⟩ := powerOfTen?_spec hk
  obtain ⟨num, den, hden, hquot, heq⟩ := div?_eq (x := x) (lt_of_lt_of_le one_pos hone)
  have hlimit : (num : ℚ) / den < limit := by
    rw [hquot]
    exact (div_le_self x.value_nonneg hone).trans_lt (hx.trans_lt one_lt_limit)
  obtain ⟨z, hz⟩ := exists_nearest hden hlimit
  exact ⟨p, hp, z, heq.trans hz, canonical_nearest hden hz⟩

/-- A division by the last power of ten takes at least 1023 from a bound of the exponent. -/
theorem div_last {k : ℤ} (hk : -1074 ≤ k - 1023) (hk' : k ≤ 64) (hx : x.value ≤ 2 ^ k) :
    ∃ z, (powerOfTen? 308).bind x.div? = some z ∧ z.value ≤ 2 ^ (k - 1023) := by
  obtain ⟨p, hp, hlarge⟩ := powerOfTen?_last
  have hpos : (0 : ℚ) < 2 ^ (1023 : ℤ) := by positivity
  obtain ⟨num, den, hden, hquot, heq⟩ := div?_eq (x := x) (hpos.trans_le hlarge)
  have hbound : (num : ℚ) / den ≤ 2 ^ (k - 1023) := by
    rw [hquot, div_le_iff₀ (hpos.trans_le hlarge)]
    calc x.value ≤ 2 ^ k := hx
      _ = 2 ^ (k - 1023) * 2 ^ (1023 : ℤ) := by
        rw [← zpow_add₀ (by norm_num), Int.sub_add_cancel]
      _ ≤ 2 ^ (k - 1023) * p.value := mul_le_mul_of_nonneg_left hlarge (by positivity)
  have hlimit : (num : ℚ) / den < limit := by
    refine hbound.trans_lt (lt_of_le_of_lt ?_ one_lt_limit)
    exact zpow_le_zpow_right₀ (by norm_num) (by omega)
  obtain ⟨z, hz⟩ := exists_nearest hden hlimit
  exact ⟨z, by rw [hp, Option.bind_some, heq, hz], value_nearest_le hden hz hk hbound⟩

/-- Divided twice by the last power of ten, nothing is left. -/
theorem div_last_tiny (hx : x.value ≤ 2 ^ (-959 : ℤ)) :
    (powerOfTen? 308).bind x.div? = some .zero := by
  obtain ⟨p, hp, hlarge⟩ := powerOfTen?_last
  have hpos : (0 : ℚ) < 2 ^ (1023 : ℤ) := by positivity
  obtain ⟨num, den, hden, hquot, heq⟩ := div?_eq (x := x) (hpos.trans_le hlarge)
  rw [hp, Option.bind_some, heq]
  refine nearest_tiny hden ?_
  rw [hquot, div_lt_iff₀ (hpos.trans_le hlarge)]
  calc x.value ≤ 2 ^ (-959 : ℤ) := hx
    _ < 2 ^ (-1075 : ℤ) * 2 ^ (1023 : ℤ) := by
      rw [← zpow_add₀ (by norm_num)]
      exact zpow_lt_zpow_right₀ (by norm_num) (by norm_num)
    _ ≤ 2 ^ (-1075 : ℤ) * p.value := mul_le_mul_of_nonneg_left hlarge (by positivity)

theorem shrink_stop {fuel k : Nat} (h : k ≤ 308 ∨ x.mantissa = 0) :
    shrink (fuel + 1) x k = (x, k) :=
  if_pos h

theorem shrink_step {fuel k : Nat} {z : Magnitude} (h : ¬ (k ≤ 308 ∨ x.mantissa = 0))
    (hz : (powerOfTen? 308).bind x.div? = some z) :
    shrink (fuel + 1) x k = shrink fuel z (k - 308) := by
  refine Eq.trans (if_neg h) ?_
  generalize (powerOfTen? 308).bind x.div? = found at hz
  rw [hz]

/-- Three divisions leave a power in range, or zero. -/
theorem shrink_three (hx : x.value ≤ 2 ^ (64 : ℤ)) (k : Nat) :
    (shrink 3 x k).1.mantissa = 0
      ∨ (shrink 3 x k).2 ≤ 308 ∧ (shrink 3 x k).1.value ≤ 2 ^ (64 : ℤ) := by
  have hstop : ∀ (fuel : Nat) (y : Magnitude) (rest : Nat), y.value ≤ 2 ^ (64 : ℤ) →
      (rest ≤ 308 ∨ y.mantissa = 0) →
      (shrink (fuel + 1) y rest).1.mantissa = 0
        ∨ (shrink (fuel + 1) y rest).2 ≤ 308
          ∧ (shrink (fuel + 1) y rest).1.value ≤ 2 ^ (64 : ℤ) := by
    intro fuel y rest hy hdone
    rw [shrink_stop hdone]
    exact hdone.elim (fun hrest => Or.inr ⟨hrest, hy⟩) Or.inl
  by_cases hdone : k ≤ 308 ∨ x.mantissa = 0
  · exact hstop 2 x k hx hdone
  obtain ⟨once, honce, hsmall⟩ := div_last (k := 64) (by omega) (by omega) hx
  have hsmall : once.value ≤ 2 ^ (-959 : ℤ) := hsmall.trans_eq (by norm_num)
  rw [shrink_step hdone honce]
  generalize k - 308 = rest
  by_cases hdone : rest ≤ 308 ∨ once.mantissa = 0
  · refine hstop 1 once rest (hsmall.trans ?_) hdone
    exact zpow_le_zpow_right₀ (by norm_num) (by norm_num)
  rw [shrink_step hdone (div_last_tiny hsmall), shrink_stop (Or.inr rfl)]
  exact Or.inl rfl

/-! ## Decimals -/

/-- **Which decimals are read**: those whose power of ten is not positive, and those
that are not above `largestDecimal`. -/
theorem exists_ofDecimal {significand : Nat} {exponent : Int} (hword : significand < 2 ^ 64)
    (h : exponent ≤ 0
      ∨ exponent ≤ 308 ∧ significand * 10 ^ exponent.toNat ≤ largestDecimal) :
    ∃ x, ofDecimal significand exponent = some x ∧ Canonical x := by
  have hsmall : ((significand : Nat) : ℚ) / (1 : Nat) ≤ 2 ^ (64 : ℤ) := by
    rw [Nat.cast_one, div_one]
    exact_mod_cast hword.le
  obtain ⟨x, hx⟩ := exists_nearest Nat.one_pos (hsmall.trans_lt one_lt_limit)
  have hxvalue : x.value ≤ 2 ^ (64 : ℤ) :=
    value_nearest_le Nat.one_pos hx (by norm_num) hsmall
  rw [ofDecimal, hx]
  dsimp only [Option.bind_eq_bind, Option.bind_some]
  by_cases hzero : x.mantissa = 0
  · rw [if_pos hzero]
    exact ⟨_, rfl, canonical_zero⟩
  rw [if_neg hzero]
  by_cases hexp : 0 ≤ exponent
  · -- the product stays below the limit as that of the largest significand does
    have hlast : exponent ≤ 308 := h.elim (fun h => h.trans (by norm_num)) And.left
    have htop : significand ≤ largestSignificand exponent.toNat := by
      refine Nat.le_min.mpr ⟨Nat.le_sub_one_of_lt hword, ?_⟩
      rw [Nat.le_div_iff_mul_le (Nat.pow_pos (by decide))]
      rcases h with h | h
      · have hnone : exponent = 0 := le_antisymm h hexp
        rw [hnone, Int.toNat_zero, pow_zero, mul_one]
        exact hword.le.trans (by decide +kernel)
      · exact h.2
    obtain ⟨p, top, hp, hnearest, _, hproduct⟩ :=
      powerOfTen?_spec (k := exponent.toNat) (by omega)
    have hle := value_nearest_mono Nat.one_pos htop hx hnearest
    have hone : 0 ≤ p.value := p.value_nonneg
    obtain ⟨z, hz, hcanonical⟩ := exists_mul? (x := p) (y := x)
      ((mul_le_mul_of_nonneg_left hle hone).trans_lt hproduct)
    rw [if_pos hexp, if_pos hlast, hp]
    exact ⟨z, hz, hcanonical⟩
  · rw [if_neg hexp]
    generalize (-exponent).toNat = k
    rcases shrink_three hxvalue k with hnone | ⟨hrange, hvalue⟩
    · generalize shrink 3 x k = found at hnone
      obtain ⟨y, k⟩ := found
      dsimp only at hnone ⊢
      rw [if_pos hnone]
      exact ⟨_, rfl, canonical_zero⟩
    · generalize shrink 3 x k = found at hrange hvalue
      obtain ⟨y, k⟩ := found
      dsimp only at hrange hvalue ⊢
      by_cases hnone : y.mantissa = 0
      · rw [if_pos hnone]
        exact ⟨_, rfl, canonical_zero⟩
      · obtain ⟨p, hp, z, hz, hcanonical⟩ := exists_div? hrange hvalue
        rw [if_neg hnone, hp]
        exact ⟨z, hz, hcanonical⟩

/-- Whatever is not above `largestDecimal` is read. -/
theorem exists_ofDecimal_of_le {significand : Nat} {exponent : Int}
    (hword : significand < 2 ^ 64)
    (h : (significand : ℚ) * 10 ^ exponent ≤ largestDecimal) :
    ∃ x, ofDecimal significand exponent = some x ∧ Canonical x := by
  by_cases hzero : significand = 0
  · refine ⟨.zero, ?_, canonical_zero⟩
    rw [ofDecimal, hzero, nearest, if_pos rfl]
    rfl
  by_cases hexp : exponent ≤ 0
  · exact exists_ofDecimal hword (Or.inl hexp)
  obtain ⟨k, rfl⟩ := Int.eq_ofNat_of_zero_le (by omega : 0 ≤ exponent)
  have hle : significand * 10 ^ k ≤ largestDecimal := by
    rw [zpow_natCast] at h
    exact_mod_cast h
  refine exists_ofDecimal hword (Or.inr ⟨?_, hle⟩)
  by_contra hlarge
  have hmore : ∀ m ≤ k, Nat.pow 10 m ≤ largestDecimal := fun m hm =>
    ((Nat.pow_le_pow_right (Nat.succ_pos 9) hm).trans
      (Nat.le_mul_of_pos_left _ (Nat.pos_of_ne_zero hzero))).trans hle
  -- by name, as the power must not be computed
  obtain ⟨m, hm⟩ : ∃ m, m = 309 := ⟨_, rfl⟩
  have hnot : ¬ Nat.pow 10 m ≤ largestDecimal := by
    rw [hm]
    decide +kernel
  exact hnot (hmore m (by omega))

theorem canonical_ofDecimal {significand : Nat} {exponent : Int} (hword : significand < 2 ^ 64)
    (h : ofDecimal significand exponent = some x) : Canonical x := by
  by_cases hexp : exponent ≤ 0
  · obtain ⟨y, hy, hcanonical⟩ := exists_ofDecimal hword (Or.inl hexp)
    rw [hy] at h
    cases h
    exact hcanonical
  · rw [ofDecimal] at h
    obtain ⟨y, _, h⟩ := Option.bind_eq_some_iff.mp h
    split at h
    · cases h
      exact canonical_zero
    · rw [if_pos (by omega)] at h
      split at h
      · obtain ⟨p, _, h⟩ := Option.bind_eq_some_iff.mp h
        exact canonical_mul? h
      · cases h

end PackageOrder.Decimal
