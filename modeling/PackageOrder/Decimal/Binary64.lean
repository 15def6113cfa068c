/-
PackageOrder.Decimal.Binary64 — finite binary floating-point magnitudes of 53
bits as exact integers, and rounding to the nearest of them.

A magnitude `⟨m, e⟩` stands for `m · 2^e`. The canonical ones have
`m < 2^53`, `-1074 ≤ e ≤ 971`, and `2^52 ≤ m` unless `e = -1074`; `nearest`
yields only these. A product or quotient is the exact one rounded once.
-/

namespace PackageOrder.Decimal

/-- The number `mantissa · 2^exponent`. -/
structure Magnitude where
  mantissa : Nat
  exponent : Int
deriving Repr, DecidableEq

namespace Magnitude

/-- The magnitude of zero. -/
def zero : Magnitude := ⟨0, -1074⟩

/-- The value as a numerator over a denominator. -/
def toRatio (x : Magnitude) : Nat × Nat :=
  if 0 ≤ x.exponent then (x.mantissa * Nat.pow 2 x.exponent.toNat, 1)
  else (x.mantissa, Nat.pow 2 (-x.exponent).toNat)

end Magnitude

/-- The quotient rounded to the nearest integer; a half goes to the even neighbour. -/
def roundDiv (num den : Nat) : Nat :=
  let q := num / den
  let r := num % den
  if 2 * r < den then q
  else if den < 2 * r then q + 1
  else q + q % 2

/-- `num / den / 2^e` as a quotient of integers. -/
def scaleDown (num den : Nat) (e : Int) : Nat × Nat :=
  if 0 ≤ e then (num, den * Nat.pow 2 e.toNat) else (num * Nat.pow 2 (-e).toNat, den)

/-- The magnitude nearest to `num / den`, ties to even; `none` when it is
beyond the largest. -/
def nearest (num den : Nat) : Option Magnitude :=
  if num = 0 then some .zero
  else
    let low : Int := max ((Nat.log2 num : Int) - Nat.log2 den - 53) (-1074)
    let (n, d) := scaleDown num den low
    let e := if Nat.pow 2 53 ≤ n / d then low + 1 else low
    let (n, d) := scaleDown num den e
    let m := roundDiv n d
    let x : Magnitude := if m = Nat.pow 2 53 then ⟨Nat.pow 2 52, e + 1⟩ else ⟨m, e⟩
    if 971 < x.exponent then none else some x

/-- The product, rounded once. -/
def Magnitude.mul? (x y : Magnitude) : Option Magnitude :=
  let (a, b) := x.toRatio
  let (c, d) := y.toRatio
  nearest (a * c) (b * d)

/-- The quotient, rounded once. -/
def Magnitude.div? (x y : Magnitude) : Option Magnitude :=
  let (a, b) := x.toRatio
  let (c, d) := y.toRatio
  nearest (a * d) (b * c)

/-- A power of ten, rounded once. -/
def powerOfTen? (k : Nat) : Option Magnitude :=
  nearest (Nat.pow 10 k) 1

/-- Divide by ten to the power of `308`, at most `fuel` times, until the rest
of the power is in range; what is zero stays zero. -/
def shrink : Nat → Magnitude → Nat → Magnitude × Nat
  | 0, x, k => (x, k)
  | fuel + 1, x, k =>
    if k ≤ 308 ∨ x.mantissa = 0 then (x, k)
    else
      match (powerOfTen? 308).bind x.div? with
      | some y => shrink fuel y (k - 308)
      | none => (x, k)

/-- The magnitude of `significand · 10^exponent` as a decimal reader computes
it: the significand is rounded, then scaled by a rounded power of ten, and the
result rounded again. `none` is a number out of range. -/
def ofDecimal (significand : Nat) (exponent : Int) : Option Magnitude := do
  let x ← nearest significand 1
  if x.mantissa = 0 then
    return .zero
  if 0 ≤ exponent then
    if exponent ≤ 308 then
      (← powerOfTen? exponent.toNat).mul? x
    else
      none
  else
    -- three divisions by 10^308 take the largest significand to zero
    let (x, k) := shrink 3 x (-exponent).toNat
    if x.mantissa = 0 then return .zero
    else x.div? (← powerOfTen? k)

end PackageOrder.Decimal
