/-
PackageOrder.Json.Value — JSON values whose objects keep the order of their
keys.

A number is an integer that fits 64 bits (without or with a sign) or a binary
floating-point number. The members of an object are a list of pairs; a key is
looked up at its first occurrence, and the operations below keep the keys
distinct and in order.
-/
import PackageOrder.Decimal.Binary64

namespace PackageOrder.Json

/-- A JSON number. -/
inductive Number where
  /-- An integer from zero up. -/
  | natural (value : Nat)
  /-- The integer `-value`, for `value` above zero. -/
  | negative (value : Nat)
  /-- A floating-point number by sign and magnitude. -/
  | real (minus : Bool) (magnitude : Decimal.Magnitude)
deriving Repr, DecidableEq

/-- A JSON value. -/
inductive Value where
  | null
  | bool (value : Bool)
  | number (value : Number)
  | string (value : String)
  | array (items : List Value)
  | object (members : List (String × Value))
deriving Repr, Inhabited

/-- The members of an object, in order. -/
abbrev Members := List (String × Value)

namespace Members

/-- The value of a key. -/
def get? (members : Members) (key : String) : Option Value :=
  members.lookup key

/-- Whether a key is there. -/
def contains (members : Members) (key : String) : Bool :=
  (members.lookup key).isSome

/-- Give a key a value: in its place if it is there, else at the end. -/
def insert : Members → String → Value → Members
  | [], key, value => [(key, value)]
  | (k, v) :: rest, key, value =>
    if k = key then (k, value) :: rest else (k, v) :: insert rest key value

/-- The keys in order. -/
def keys (members : Members) : List String :=
  members.map (·.1)

theorem get?_insert_self (members : Members) (key : String) (value : Value) :
    (members.insert key value).get? key = some value := by
  induction members with
  | nil => simp [insert, get?]
  | cons entry rest ih =>
    obtain ⟨k, v⟩ := entry
    simp only [insert]
    split
    · rename_i h; simp [get?, h]
    · rename_i h
      have hne : (key == k) = false := by simpa [beq_eq_false_iff_ne] using fun e => h e.symm
      simpa [get?, List.lookup_cons, hne] using ih

theorem get?_insert_of_ne (members : Members) {key other : String} (value : Value)
    (hne : other ≠ key) : (members.insert key value).get? other = members.get? other := by
  induction members with
  | nil =>
    have : (other == key) = false := by simpa [beq_eq_false_iff_ne] using hne
    simp [insert, get?, List.lookup_cons, this]
  | cons entry rest ih =>
    obtain ⟨k, v⟩ := entry
    simp only [insert]
    split
    · rename_i h
      have : (other == k) = false := by
        simpa [beq_eq_false_iff_ne, h] using hne
      simp [get?, List.lookup_cons, this]
    · simp only [get?, List.lookup_cons] at ih ⊢
      split
      · rfl
      · exact ih

end Members

namespace Value

/-- The text of a string. -/
def string? : Value → Option String
  | .string text => some text
  | _ => none

/-- The truth value of a boolean. -/
def bool? : Value → Option Bool
  | .bool b => some b
  | _ => none

/-- The items of an array. -/
def array? : Value → Option (List Value)
  | .array items => some items
  | _ => none

/-- The members of an object. -/
def object? : Value → Option Members
  | .object members => some members
  | _ => none

/-- The value of a key, if the value is an object that has it. -/
def get? (value : Value) (key : String) : Option Value :=
  value.object?.bind (·.get? key)

end Value

end PackageOrder.Json
