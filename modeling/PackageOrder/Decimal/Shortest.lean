/-
PackageOrder.Decimal.Shortest — the fewest decimal digits that read back.

A decimal reads back as the magnitude `m · 2^e` when it lies in the interval
of numbers that round to it; the ends belong to the interval iff `m` is even.
For one, two, … seventeen digits the two neighbours of the value on that
decimal grid are tried: if any point of the grid lies in the interval, so does
one of these two. The first grid with a hit wins, and of two hits the nearer.
-/
import PackageOrder.Decimal.Binary64

namespace PackageOrder.Decimal

/-- The number `digits · 10^exponent`. -/
structure Digits where
  digits : Nat
  exponent : Int
deriving Repr, DecidableEq

/-- The number of decimal digits; none for zero. -/
def digitCount (n : Nat) : Nat :=
  if n = 0 then 0 else (Nat.toDigits 10 n).length

/-- The `k` with `10^(k-1) ≤ num / den < 10^k`. -/
def decimalWidth (num den : Nat) : Int :=
  if den ≤ num then digitCount (num / den)
  else 1 - (digitCount ((den + num - 1) / num - 1) : Int)

/-- The interval that rounds to a magnitude, in quarters of its last place:
the lower end, the value, the upper end, and whether the ends belong to it. -/
structure Interval where
  low : Nat
  value : Nat
  high : Nat
  closed : Bool

/-- The interval of a magnitude. Below a power of two the spacing is half. -/
def Magnitude.interval (x : Magnitude) : Interval where
  low := 4 * x.mantissa - (if x.mantissa = Nat.pow 2 52 ∧ -1074 < x.exponent then 1 else 2)
  value := 4 * x.mantissa
  high := 4 * x.mantissa + 2
  closed := x.mantissa % 2 == 0

/-- Whether `n` lies between the ends of the interval, all scaled by `scale`. -/
def Interval.has (i : Interval) (scale n : Nat) : Bool :=
  if i.closed then i.low * scale ≤ n && n ≤ i.high * scale
  else i.low * scale < n && n < i.high * scale

/-- The hit on the grid of `10^p`, if there is one. A quarter of the last
place is `num / den`. -/
def gridHit? (i : Interval) (num den : Nat) (p : Int) : Option Digits :=
  -- one quarter is `scale` and one grid step is `step` of a common unit
  let (scale, step) :=
    if 0 ≤ p then (num, den * Nat.pow 10 p.toNat) else (num * Nat.pow 10 (-p).toNat, den)
  let below := i.value * scale / step
  let above := below + 1
  let toBelow := i.value * scale - below * step
  let toAbove := above * step - i.value * scale
  match i.has scale (below * step), i.has scale (above * step) with
  | true, true =>
    if toBelow < toAbove || (toBelow == toAbove && below % 2 == 0) then some ⟨below, p⟩
    else some ⟨above, p⟩
  | true, false => some ⟨below, p⟩
  | false, true => some ⟨above, p⟩
  | false, false => none

/-- The first hit on the grids of `count`, `count + 1`, … digits. -/
def firstHit? (i : Interval) (num den : Nat) (width : Int) : Nat → Nat → Option Digits
  | 0, _ => none
  | more + 1, count =>
    (gridHit? i num den (width - count)).or (firstHit? i num den width more (count + 1))

/-- Trailing zeros of the digits, at most `fuel` of them, moved to the exponent. -/
def Digits.trim : Nat → Digits → Digits
  | 0, x => x
  | fuel + 1, x =>
    if x.digits ≠ 0 ∧ x.digits % 10 = 0 then Digits.trim fuel ⟨x.digits / 10, x.exponent + 1⟩
    else x

/-- The shortest decimal that reads back as the magnitude. -/
def Magnitude.shortest (x : Magnitude) : Digits :=
  if x.mantissa = 0 then ⟨0, 0⟩
  else
    let quarter : Magnitude := ⟨1, x.exponent - 2⟩
    let (num, den) := quarter.toRatio
    let (n, d) := x.toRatio
    let found := firstHit? x.interval num den (decimalWidth n d) 17 1
    -- seventeen digits always read back
    (found.getD ⟨0, 0⟩).trim 17

end PackageOrder.Decimal
