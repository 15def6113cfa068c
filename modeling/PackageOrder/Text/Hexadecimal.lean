/-
PackageOrder.Text.Hexadecimal — numbers in hexadecimal digits of either case.
-/
namespace PackageOrder.Text

/-- The value of a hexadecimal digit. -/
def hexDigit? (c : Char) : Option Nat :=
  if '0' ≤ c ∧ c ≤ '9' then some (c.toNat - '0'.toNat)
  else if 'a' ≤ c ∧ c ≤ 'f' then some (c.toNat - 'a'.toNat + 10)
  else if 'A' ≤ c ∧ c ≤ 'F' then some (c.toNat - 'A'.toNat + 10)
  else none

/-- The number that `n` becomes with further digits. -/
def extendHex? : Nat → List Char → Option Nat
  | n, [] => some n
  | n, c :: rest =>
    match hexDigit? c with
    | some d => extendHex? (16 * n + d) rest
    | none => none

/-- The number of some hexadecimal digits; no digits make no number. -/
def hexNumber? (digits : List Char) : Option Nat :=
  if digits = [] then none else extendHex? 0 digits

theorem hexDigit?_lt {c : Char} {d : Nat} (h : hexDigit? c = some d) : d < 16 := by
  have key : ∀ {a b : Char} {base : Nat}, c ≤ b → b.toNat - a.toNat + base < 16 →
      c.toNat - a.toNat + base < 16 := by
    intro a b base hle hb
    have : c.toNat ≤ b.toNat := hle
    omega
  unfold hexDigit? at h
  split at h
  · rename_i hc
    simp only [Option.some.injEq] at h
    exact h ▸ @key '0' '9' 0 hc.2 (by decide)
  · split at h
    · rename_i hc
      simp only [Option.some.injEq] at h
      exact h ▸ key hc.2 (by decide)
    · split at h
      · rename_i hc
        simp only [Option.some.injEq] at h
        exact h ▸ key hc.2 (by decide)
      · cases h

end PackageOrder.Text
