/-
PackageOrder.Proofs.Decimal.Nearest — what rounding to a magnitude yields.

`nearest` scales a quotient so that it has 53 bits before the point, or as many as
there are above the least exponent, and rounds the rest (`nearest_cases`). From this:
every quotient below the middle between the largest magnitude and the next power of
two has a nearest magnitude (`exists_nearest`), one that is not above a power of two
stays so (`value_nearest_le`), and what is less than half of the least magnitude
becomes zero (`nearest_tiny`). Values are rational numbers here.
-/
import Mathlib.Algebra.Order.Field.Power
import Mathlib.Algebra.Order.Field.Rat
import Mathlib.Tactic.FieldSimp
import Mathlib.Tactic.Linarith
import Mathlib.Tactic.NormNum
import Mathlib.Tactic.Positivity
import Mathlib.Tactic.Ring
import PackageOrder.Decimal.Binary64

namespace PackageOrder.Decimal

/-! ## Rounding a quotient -/

theorem roundDiv_le {n d k : Nat} (hd : 0 < d) (h : n ≤ k * d) : roundDiv n d ≤ k := by
  have hdiv := Nat.div_add_mod n d
  have hmod := Nat.mod_lt n hd
  unfold roundDiv
  dsimp only
  have hle : n / d ≤ k := Nat.div_le_of_le_mul (by rwa [Nat.mul_comm])
  by_cases heq : n / d = k
  · have hzero : n % d = 0 := by
      rw [heq, Nat.mul_comm] at hdiv
      omega
    rw [hzero, if_pos (by omega)]
    exact hle
  · split
    · exact hle
    · split <;> omega

theorem le_roundDiv {n d k : Nat} (hd : 0 < d) (h : k * d ≤ n) : k ≤ roundDiv n d := by
  have hle : k ≤ n / d := (Nat.le_div_iff_mul_le hd).mpr h
  unfold roundDiv
  dsimp only
  split
  · exact hle
  · split <;> omega

/-- What is less than half above a number is not rounded beyond it. -/
theorem roundDiv_le_of_half {n d k : Nat} (hd : 0 < d) (h : 2 * n < (2 * k + 1) * d) :
    roundDiv n d ≤ k := by
  have hdiv := Nat.div_add_mod n d
  have hle : n / d ≤ k := by
    rw [← Nat.lt_succ_iff, Nat.div_lt_iff_lt_mul hd]
    nlinarith
  unfold roundDiv
  dsimp only
  split
  · exact hle
  · rename_i hhalf
    have hlt : n / d < k := by
      refine Nat.lt_of_le_of_ne hle fun heq => hhalf ?_
      rw [heq] at hdiv
      nlinarith
    split <;> omega

theorem roundDiv_mono {n n' d : Nat} (hd : 0 < d) (h : n ≤ n') : roundDiv n d ≤ roundDiv n' d := by
  have hdiv := Nat.div_le_div_right (c := d) h
  by_cases hlt : n / d < n' / d
  · have hlow : roundDiv n d ≤ n / d + 1 := by
      unfold roundDiv
      dsimp only
      split
      · omega
      · split <;> omega
    have hhigh : n' / d ≤ roundDiv n' d := le_roundDiv hd (Nat.div_mul_le_self n' d)
    omega
  · have heq : n / d = n' / d := by omega
    have hmod : n % d ≤ n' % d := by
      have h1 := Nat.div_add_mod n d
      have h2 := Nat.div_add_mod n' d
      rw [heq] at h1
      omega
    unfold roundDiv
    dsimp only
    rw [heq]
    by_cases hhalf : 2 * (n' % d) < d
    · rw [if_pos hhalf, if_pos (by omega)]
    · rw [if_neg hhalf]
      by_cases hmore : d < 2 * (n' % d)
      · rw [if_pos hmore]
        split
        · omega
        · split <;> omega
      · rw [if_neg hmore]
        split
        · omega
        · rw [if_neg (by omega)]

/-! ## Scaling -/

/-- The number that a magnitude stands for. -/
def Magnitude.value (x : Magnitude) : ℚ :=
  x.mantissa * 2 ^ x.exponent

/-- A magnitude with 53 bits and an exponent in range. -/
structure Canonical (x : Magnitude) : Prop where
  mantissa_lt : x.mantissa < 2 ^ 53
  le_exponent : -1074 ≤ x.exponent
  exponent_le : x.exponent ≤ 971

theorem Magnitude.value_toRatio (x : Magnitude) :
    0 < x.toRatio.2 ∧ (x.toRatio.1 : ℚ) / x.toRatio.2 = x.value := by
  unfold Magnitude.toRatio Magnitude.value
  split
  · rename_i he
    refine ⟨Nat.one_pos, ?_⟩
    obtain ⟨k, hk⟩ := Int.eq_ofNat_of_zero_le he
    simp [hk]
  · rename_i he
    refine ⟨Nat.pow_pos (by decide), ?_⟩
    obtain ⟨k, hk⟩ := Int.eq_ofNat_of_zero_le (by omega : 0 ≤ -x.exponent)
    have hneg : x.exponent = -(k : ℤ) := by omega
    simp [hneg, div_eq_mul_inv]

theorem scaleDown_spec (num : Nat) {den : Nat} (hden : 0 < den) (e : ℤ) :
    0 < (scaleDown num den e).2
      ∧ ((scaleDown num den e).1 : ℚ) / (scaleDown num den e).2 = num / den / 2 ^ e := by
  unfold scaleDown
  split
  · rename_i he
    obtain ⟨k, rfl⟩ := Int.eq_ofNat_of_zero_le he
    refine ⟨Nat.mul_pos hden (Nat.pow_pos (by decide)), ?_⟩
    simp [div_div]
  · rename_i he
    obtain ⟨k, hk⟩ := Int.eq_ofNat_of_zero_le (by omega : 0 ≤ -e)
    have hneg : e = -(k : ℤ) := by omega
    refine ⟨hden, ?_⟩
    simp [hneg, div_eq_mul_inv, mul_right_comm]

/-- A quotient lies between powers of two by the lengths of its parts. -/
theorem quotient_bounds {num den : Nat} (hnum : num ≠ 0) (hden : 0 < den) :
    (2 : ℚ) ^ ((Nat.log2 num : ℤ) - Nat.log2 den - 1) < num / den
      ∧ (num : ℚ) / den < 2 ^ ((Nat.log2 num : ℤ) - Nat.log2 den + 1) := by
  have hlow : ((2 : ℚ) ^ (Nat.log2 num : ℤ)) ≤ num := by
    rw [zpow_natCast]
    exact_mod_cast Nat.log2_self_le hnum
  have hhigh : (num : ℚ) < 2 ^ ((Nat.log2 num : ℤ) + 1) := by
    have h := Nat.lt_log2_self (n := num)
    rw [show ((Nat.log2 num : ℤ) + 1) = ((Nat.log2 num + 1 : ℕ) : ℤ) by push_cast; rfl, zpow_natCast]
    exact_mod_cast h
  have dlow : ((2 : ℚ) ^ (Nat.log2 den : ℤ)) ≤ den := by
    rw [zpow_natCast]
    exact_mod_cast Nat.log2_self_le hden.ne'
  have dhigh : (den : ℚ) < 2 ^ ((Nat.log2 den : ℤ) + 1) := by
    have h := Nat.lt_log2_self (n := den)
    rw [show ((Nat.log2 den : ℤ) + 1) = ((Nat.log2 den + 1 : ℕ) : ℤ) by push_cast; rfl, zpow_natCast]
    exact_mod_cast h
  have hpos : (0 : ℚ) < den := by exact_mod_cast hden
  have two : (2 : ℚ) ≠ 0 := by norm_num
  constructor
  · rw [lt_div_iff₀ hpos]
    calc (2 : ℚ) ^ ((Nat.log2 num : ℤ) - Nat.log2 den - 1) * den
        < 2 ^ ((Nat.log2 num : ℤ) - Nat.log2 den - 1) * 2 ^ ((Nat.log2 den : ℤ) + 1) :=
          mul_lt_mul_of_pos_left dhigh (by positivity)
      _ = 2 ^ (Nat.log2 num : ℤ) := by
          rw [← zpow_add₀ two]
          congr 1
          ring
      _ ≤ num := hlow
  · rw [div_lt_iff₀ hpos]
    calc (num : ℚ) < 2 ^ ((Nat.log2 num : ℤ) + 1) := hhigh
      _ = 2 ^ ((Nat.log2 num : ℤ) - Nat.log2 den + 1) * 2 ^ (Nat.log2 den : ℤ) := by
          rw [← zpow_add₀ two]
          congr 1
          ring
      _ ≤ 2 ^ ((Nat.log2 num : ℤ) - Nat.log2 den + 1) * den :=
          mul_le_mul_of_nonneg_left dlow (by positivity)

/-! ## The nearest magnitude -/

/-- The magnitude of a rounded quotient, unless it is out of range. -/
def rounded? (m : Nat) (e : ℤ) : Option Magnitude :=
  let x : Magnitude := if m = 2 ^ 53 then ⟨2 ^ 52, e + 1⟩ else ⟨m, e⟩
  if 971 < x.exponent then none else some x

/-- **How a quotient is rounded**: it is scaled to less than `2^53`, and to no less than
half of that unless the exponent is the least. -/
theorem nearest_cases {num den : Nat} (hnum : num ≠ 0) (hden : 0 < den) :
    ∃ e : ℤ, -1074 ≤ e ∧ (num : ℚ) / den / 2 ^ e < 2 ^ 53
      ∧ (e = -1074 ∨ (2 : ℚ) ^ 52 ≤ num / den / 2 ^ e)
      ∧ nearest num den
        = rounded? (roundDiv (scaleDown num den e).1 (scaleDown num den e).2) e := by
  obtain ⟨hlow, hhigh⟩ := quotient_bounds hnum hden
  have two : (2 : ℚ) ≠ 0 := by norm_num
  have hpow : ∀ k : ℤ, (0 : ℚ) < 2 ^ k := fun k => by positivity
  set start : ℤ := max ((Nat.log2 num : ℤ) - Nat.log2 den - 53) (-1074) with hstart
  obtain ⟨hpos, hquot⟩ := scaleDown_spec num hden start
  have hfloor : 2 ^ 53 ≤ (scaleDown num den start).1 / (scaleDown num den start).2
      ↔ (2 : ℚ) ^ 53 ≤ num / den / 2 ^ start := by
    rw [← hquot, le_div_iff₀ (by exact_mod_cast hpos), Nat.le_div_iff_mul_le hpos]
    exact_mod_cast Iff.rfl
  have hresult : ∀ e : ℤ, e = (if 2 ^ 53 ≤ (scaleDown num den start).1 / (scaleDown num den start).2
        then start + 1 else start) →
      nearest num den = rounded? (roundDiv (scaleDown num den e).1 (scaleDown num den e).2) e := by
    rintro e rfl
    unfold nearest
    rw [if_neg hnum]
    rfl
  by_cases hlarge : (2 : ℚ) ^ 53 ≤ num / den / 2 ^ start
  · -- one more bit before the point, which the least exponent leaves no room for
    have hnormal : start = (Nat.log2 num : ℤ) - Nat.log2 den - 53 := by
      by_contra hne
      have hleast : start = -1074 := by omega
      have hbelow : (num : ℚ) / den < 2 ^ (53 + start) := by
        refine hhigh.trans_le (zpow_le_zpow_right₀ (by norm_num) ?_)
        omega
      rw [zpow_add₀ two] at hbelow
      rw [le_div_iff₀ (hpow start)] at hlarge
      exact absurd hbelow (not_lt.mpr hlarge)
    refine ⟨start + 1, by omega, ?_, Or.inr ?_, hresult _ (by rw [if_pos (hfloor.mpr hlarge)])⟩
    · rw [div_lt_iff₀ (hpow _)]
      calc (num : ℚ) / den < 2 ^ ((Nat.log2 num : ℤ) - Nat.log2 den + 1) := hhigh
        _ = 2 ^ ((53 : ℤ) + (start + 1)) := by congr 1; omega
        _ = 2 ^ 53 * 2 ^ (start + 1) := zpow_add₀ two 53 _
    · rw [le_div_iff₀ (hpow _), zpow_add₀ two]
      rw [le_div_iff₀ (hpow _)] at hlarge
      linarith
  · refine ⟨start, by omega, not_le.mp hlarge, ?_, hresult _ (by rw [if_neg (hfloor.not.mpr hlarge)])⟩
    by_cases hleast : start = -1074
    · exact Or.inl hleast
    · refine Or.inr ?_
      rw [le_div_iff₀ (hpow _)]
      calc (2 : ℚ) ^ 52 * 2 ^ start = 2 ^ ((52 : ℤ) + start) := (zpow_add₀ two 52 _).symm
        _ = 2 ^ ((Nat.log2 num : ℤ) - Nat.log2 den - 1) := by congr 1; omega
        _ ≤ num / den := hlow.le

/-- The middle between the largest magnitude and the next power of two. -/
def limit : ℚ := (2 ^ 54 - 1) * 2 ^ 970

theorem limit_eq : limit = (2 ^ 53 - 1 / 2) * 2 ^ (971 : ℤ) := by
  have hsplit : (2 : ℚ) ^ (971 : ℤ) = 2 * 2 ^ 970 := by
    rw [show (971 : ℤ) = ((1 + 970 : ℕ) : ℤ) by norm_num, zpow_natCast, pow_add, pow_one]
  rw [limit, hsplit]
  generalize (2 : ℚ) ^ 970 = p
  ring

variable {num den : Nat}

/-- The quotient that is rounded, as numbers. -/
theorem scaled_le_iff (hden : 0 < den) (e : ℤ) (k : Nat) :
    (scaleDown num den e).1 ≤ k * (scaleDown num den e).2 ↔ (num : ℚ) / den / 2 ^ e ≤ k := by
  obtain ⟨hpos, hquot⟩ := scaleDown_spec num hden e
  rw [← hquot, div_le_iff₀ (by exact_mod_cast hpos)]
  exact_mod_cast Iff.rfl

theorem scaled_half_iff (hden : 0 < den) (e : ℤ) (k : Nat) :
    2 * (scaleDown num den e).1 < (2 * k + 1) * (scaleDown num den e).2
      ↔ (num : ℚ) / den / 2 ^ e < k + 1 / 2 := by
  obtain ⟨hpos, hquot⟩ := scaleDown_spec num hden e
  have hposQ : (0 : ℚ) < (scaleDown num den e).2 := by exact_mod_cast hpos
  rw [← hquot, div_lt_iff₀ hposQ]
  constructor
  · intro h
    have hQ : (2 : ℚ) * (scaleDown num den e).1 < (2 * k + 1) * (scaleDown num den e).2 := by
      exact_mod_cast h
    linarith
  · intro h
    have hQ : (2 : ℚ) * (scaleDown num den e).1 < (2 * k + 1) * (scaleDown num den e).2 := by
      linarith
    exact_mod_cast hQ

/-- A scaled quotient is not rounded beyond a whole number. -/
theorem roundDiv_scaleDown_le (hden : 0 < den) {e : ℤ} {k : Nat}
    (h : (num : ℚ) / den / 2 ^ e ≤ k) :
    roundDiv (scaleDown num den e).1 (scaleDown num den e).2 ≤ k :=
  roundDiv_le (scaleDown_spec num hden e).1 ((scaled_le_iff hden e k).mpr h)

theorem le_roundDiv_scaleDown (hden : 0 < den) {e : ℤ} {k : Nat}
    (h : (k : ℚ) ≤ num / den / 2 ^ e) :
    k ≤ roundDiv (scaleDown num den e).1 (scaleDown num den e).2 := by
  obtain ⟨hpos, hquot⟩ := scaleDown_spec num hden e
  refine le_roundDiv hpos ?_
  rw [← hquot, le_div_iff₀ (by exact_mod_cast hpos)] at h
  exact_mod_cast h

theorem rounded?_eq_some {m : Nat} {e : ℤ} (h : m < 2 ^ 53 ∧ e ≤ 971 ∨ m = 2 ^ 53 ∧ e ≤ 970) :
    rounded? m e = some (if m = 2 ^ 53 then ⟨2 ^ 52, e + 1⟩ else ⟨m, e⟩) := by
  unfold rounded?
  rcases h with ⟨hm, he⟩ | ⟨hm, he⟩
  · rw [if_neg (Nat.ne_of_lt hm)]
    exact if_neg (not_lt.mpr he)
  · rw [if_pos hm]
    exact if_neg (by dsimp only; omega)

/-- **Every quotient below the limit has a nearest magnitude.** -/
theorem exists_nearest (hden : 0 < den) (h : (num : ℚ) / den < limit) :
    ∃ x, nearest num den = some x := by
  by_cases hnum : num = 0
  · exact ⟨.zero, by rw [nearest, if_pos hnum]⟩
  obtain ⟨e, hleast, hsmall, hlarge, heq⟩ := nearest_cases hnum hden
  have two : (2 : ℚ) ≠ 0 := by norm_num
  have hpow : ∀ k : ℤ, (0 : ℚ) < 2 ^ k := fun k => by positivity
  have hm : roundDiv (scaleDown num den e).1 (scaleDown num den e).2 ≤ 2 ^ 53 :=
    roundDiv_scaleDown_le hden (by exact_mod_cast hsmall.le)
  have he : e ≤ 971 := by
    by_contra hbig
    have hge : (2 : ℚ) ^ 52 * 2 ^ e ≤ num / den := by
      rw [← le_div_iff₀ (hpow e)]
      exact hlarge.resolve_left (by omega)
    have hmore : (2 : ℚ) ^ (972 : ℤ) ≤ 2 ^ e := zpow_le_zpow_right₀ (by norm_num) (by omega)
    have hlimit : limit < 2 ^ 52 * 2 ^ (972 : ℤ) := by
      rw [limit_eq, show (972 : ℤ) = 1 + 971 by norm_num, zpow_add₀ two, zpow_one]
      have hpos := hpow 971
      generalize (2 : ℚ) ^ (971 : ℤ) = p at hpos
      linarith
    linarith
  rw [heq]
  by_cases hlast : e = 971
  · -- with the largest exponent there is no rounding up to the next power of two
    have hhalf : roundDiv (scaleDown num den e).1 (scaleDown num den e).2 ≤ 2 ^ 53 - 1 := by
      refine roundDiv_le_of_half (scaleDown_spec _ hden e).1 ((scaled_half_iff hden e _).mpr ?_)
      rw [div_lt_iff₀ (hpow e), hlast]
      refine h.trans_eq (limit_eq.trans ?_)
      generalize (2 : ℚ) ^ (971 : ℤ) = p
      norm_num
    exact ⟨_, rounded?_eq_some (Or.inl ⟨by omega, he⟩)⟩
  · by_cases heq : roundDiv (scaleDown num den e).1 (scaleDown num den e).2 = 2 ^ 53
    · exact ⟨_, rounded?_eq_some (Or.inr ⟨heq, by omega⟩)⟩
    · exact ⟨_, rounded?_eq_some (Or.inl ⟨by omega, he⟩)⟩

/-- The nearest magnitude by the scaled quotient. -/
theorem nearest_eq_some {x : Magnitude} (hnum : num ≠ 0) (hden : 0 < den)
    (h : nearest num den = some x) :
    ∃ e : ℤ, -1074 ≤ e ∧ (num : ℚ) / den / 2 ^ e < 2 ^ 53
      ∧ (e = -1074 ∨ (2 : ℚ) ^ 52 ≤ num / den / 2 ^ e)
      ∧ Canonical x
      ∧ x.value = roundDiv (scaleDown num den e).1 (scaleDown num den e).2 * 2 ^ e := by
  obtain ⟨e, hleast, hsmall, hlarge, heq⟩ := nearest_cases hnum hden
  refine ⟨e, hleast, hsmall, hlarge, ?_⟩
  have hm : roundDiv (scaleDown num den e).1 (scaleDown num den e).2 ≤ 2 ^ 53 :=
    roundDiv_scaleDown_le hden (by exact_mod_cast hsmall.le)
  rw [heq, rounded?] at h
  by_cases hfull : roundDiv (scaleDown num den e).1 (scaleDown num den e).2 = 2 ^ 53
  · rw [if_pos hfull] at h
    split at h
    · cases h
    · rename_i hrange
      cases h
      refine ⟨⟨by norm_num, by dsimp only; omega, by dsimp only at hrange ⊢; omega⟩, ?_⟩
      rw [Magnitude.value, hfull, zpow_add₀ (by norm_num), zpow_one]
      push_cast
      ring
  · rw [if_neg hfull] at h
    split at h
    · cases h
    · rename_i hrange
      cases h
      exact ⟨⟨by dsimp only; omega, hleast, by dsimp only at hrange ⊢; omega⟩, rfl⟩

theorem canonical_nearest {x : Magnitude} (hden : 0 < den) (h : nearest num den = some x) :
    Canonical x := by
  by_cases hnum : num = 0
  · rw [nearest, if_pos hnum] at h
    cases h
    exact ⟨by decide, by decide, by decide⟩
  · obtain ⟨_, _, _, _, hcanonical, _⟩ := nearest_eq_some hnum hden h
    exact hcanonical

/-- What is not above a power of two is not rounded above it. -/
theorem value_nearest_le {x : Magnitude} (hden : 0 < den) (h : nearest num den = some x) {k : ℤ}
    (hk : -1074 ≤ k) (hle : (num : ℚ) / den ≤ 2 ^ k) : x.value ≤ 2 ^ k := by
  have hpow : ∀ k : ℤ, (0 : ℚ) < 2 ^ k := fun k => by positivity
  by_cases hnum : num = 0
  · rw [nearest, if_pos hnum] at h
    cases h
    simpa [Magnitude.zero, Magnitude.value] using (hpow k).le
  · obtain ⟨e, hleast, hsmall, hlarge, _, hvalue⟩ := nearest_eq_some hnum hden h
    have hek : e ≤ k := by
      rcases hlarge with hlarge | hlarge
      · omega
      · by_contra hlt
        rw [le_div_iff₀ (hpow e)] at hlarge
        have hmore : (2 : ℚ) ^ k ≤ 2 ^ e := zpow_le_zpow_right₀ (by norm_num) (by omega)
        have hpos := hpow e
        linarith
    obtain ⟨n, hn⟩ := Int.eq_ofNat_of_zero_le (by omega : 0 ≤ k - e)
    have hsplit : (2 : ℚ) ^ k = 2 ^ n * 2 ^ e := by
      rw [← zpow_natCast, ← zpow_add₀ (by norm_num)]
      congr 1
      omega
    have hm : roundDiv (scaleDown num den e).1 (scaleDown num den e).2 ≤ 2 ^ n := by
      refine roundDiv_scaleDown_le hden ?_
      rw [div_le_iff₀ (hpow e)]
      push_cast
      rwa [← hsplit]
    rw [hvalue, hsplit]
    refine mul_le_mul_of_nonneg_right ?_ (hpow e).le
    exact_mod_cast hm

/-- What is less than half of the least magnitude becomes zero. -/
theorem nearest_tiny (hden : 0 < den) (h : (num : ℚ) / den < 2 ^ (-1075 : ℤ)) :
    nearest num den = some .zero := by
  by_cases hnum : num = 0
  · rw [nearest, if_pos hnum]
  obtain ⟨e, hleast, _, hlarge, heq⟩ := nearest_cases hnum hden
  have hpow : ∀ k : ℤ, (0 : ℚ) < 2 ^ k := fun k => by positivity
  have he : e = -1074 := by
    refine hlarge.resolve_right fun hlarge => ?_
    rw [le_div_iff₀ (hpow e)] at hlarge
    have hmore : (2 : ℚ) ^ (-1075 : ℤ) ≤ 2 ^ e := zpow_le_zpow_right₀ (by norm_num) (by omega)
    have hpos := hpow e
    linarith
  have hzero : roundDiv (scaleDown num den e).1 (scaleDown num den e).2 = 0 := by
    refine Nat.le_zero.mp (roundDiv_le_of_half (scaleDown_spec _ hden e).1
      ((scaled_half_iff hden e 0).mpr ?_))
    rw [div_lt_iff₀ (hpow e), he]
    refine h.trans_eq ?_
    rw [show (-1075 : ℤ) = -1 + -1074 by norm_num, zpow_add₀ (by norm_num)]
    norm_num
  rw [heq, hzero, he]
  rfl

/-- Rounding keeps the order of quotients with one denominator. -/
theorem value_nearest_mono {num' : Nat} {x x' : Magnitude} (hden : 0 < den) (hle : num ≤ num')
    (h : nearest num den = some x) (h' : nearest num' den = some x') : x.value ≤ x'.value := by
  have hpow : ∀ k : ℤ, (0 : ℚ) < 2 ^ k := fun k => by positivity
  by_cases hnum : num = 0
  · rw [nearest, if_pos hnum] at h
    cases h
    have hzero : Magnitude.zero.value = 0 := zero_mul _
    rw [hzero, Magnitude.value]
    exact mul_nonneg (Nat.cast_nonneg _) (hpow _).le
  have hnum' : num' ≠ 0 := by omega
  obtain ⟨e, hleast, hsmall, hlarge, _, hvalue⟩ := nearest_eq_some hnum hden h
  obtain ⟨e', _, hsmall', hlarge', _, hvalue'⟩ := nearest_eq_some hnum' hden h'
  have hquot : (num : ℚ) / den ≤ num' / den := by
    have hdenQ : (0 : ℚ) < den := by exact_mod_cast hden
    rw [div_le_div_iff_of_pos_right hdenQ]
    exact_mod_cast hle
  have hstep : ∀ {one other : ℤ}, one < other → (2 : ℚ) ^ 53 * 2 ^ one ≤ 2 ^ 52 * 2 ^ other := by
    intro one other hlt
    have hmore : (2 : ℚ) ^ (one + 1) ≤ 2 ^ other := zpow_le_zpow_right₀ (by norm_num) (by omega)
    rw [zpow_add₀ (by norm_num), zpow_one] at hmore
    linarith
  rw [hvalue, hvalue']
  rcases lt_trichotomy e e' with hlt | rfl | hlt
  · -- the quotient with the larger exponent has all its bits
    have hhigh : roundDiv (scaleDown num den e).1 (scaleDown num den e).2 ≤ 2 ^ 53 :=
      roundDiv_scaleDown_le hden (by exact_mod_cast hsmall.le)
    have hlow : 2 ^ 52 ≤ roundDiv (scaleDown num' den e').1 (scaleDown num' den e').2 :=
      le_roundDiv_scaleDown hden (by exact_mod_cast hlarge'.resolve_left (by omega))
    calc (roundDiv (scaleDown num den e).1 (scaleDown num den e).2 : ℚ) * 2 ^ e
        ≤ 2 ^ 53 * 2 ^ e := mul_le_mul_of_nonneg_right (by exact_mod_cast hhigh) (hpow e).le
      _ ≤ 2 ^ 52 * 2 ^ e' := hstep hlt
      _ ≤ _ := mul_le_mul_of_nonneg_right (by exact_mod_cast hlow) (hpow e').le
  · refine mul_le_mul_of_nonneg_right ?_ (hpow e).le
    have hsame : (scaleDown num den e).2 = (scaleDown num' den e).2
        ∧ (scaleDown num den e).1 ≤ (scaleDown num' den e).1 := by
      unfold scaleDown
      split
      · exact ⟨rfl, hle⟩
      · exact ⟨rfl, Nat.mul_le_mul_right _ hle⟩
    rw [hsame.1]
    exact_mod_cast roundDiv_mono (scaleDown_spec _ hden e).1 hsame.2
  · -- the larger exponent would need the larger quotient
    have hge := hlarge.resolve_left (by omega)
    rw [le_div_iff₀ (hpow e)] at hge
    rw [div_lt_iff₀ (hpow e')] at hsmall'
    have hmore := hstep hlt
    linarith

end PackageOrder.Decimal
