/-
PackageOrder.Json.Form — JSON texts as trees, before anything is made of their
numbers and keys.

A form says what a text looks like: a number is its digits, and an object has
every member that was written, repeated keys included. `Form.toValue` makes a
value of it: numbers are resolved, the last of several members with one key
wins at the place of the first, and nesting beyond `room` levels is refused.
Typed readers (`PackageOrder.Json.Decode`) work on forms, because they refuse
repeated keys and pass over what they do not know.

Half of a surrogate pair is no character. A string with one in it, or an object
with such a key, is a broken form: no value, but it can be passed over.
-/
import PackageOrder.Json.Value
import PackageOrder.Text.Split

namespace PackageOrder.Json

/-- A number as it is written. -/
structure NumberText where
  minus : Bool
  /-- The digits before the point. -/
  whole : List Nat
  /-- The digits after the point, if there is one. -/
  fraction : Option (List Nat)
  /-- The exponent: whether it is negative, and its digits. -/
  exponent : Option (Bool × List Nat)
deriving Repr, DecidableEq

/-- The shape of a JSON text. -/
inductive Form where
  | null
  | bool (value : Bool)
  | number (text : NumberText)
  | string (value : String)
  | array (items : List Form)
  | object (members : List (String × Form))
  /-- What holds half of a surrogate pair. -/
  | broken
deriving Repr, Inhabited

namespace Form

/-- The form of a string, which is `none` if it is no text. -/
def ofString : Option String → Form
  | some text => .string text
  | none => .broken

/-- The form of an object whose keys are `none` where they are no texts. -/
def ofMembers (members : List (Option String × Form)) : Form :=
  match members.mapM fun (key, form) => key.map (·, form) with
  | some members => .object members
  | none => .broken

end Form

/-! ## Numbers -/

/-- The number that a list of digits writes. -/
def ofDigits (digits : List Nat) : Nat :=
  digits.foldl (fun n d => 10 * n + d) 0

/-- The longest front of the digits that, appended to `n`, stays below `2^64`,
as a number, and how many digits are left over. -/
def takeWord (n : Nat) : List Nat → Nat × Nat
  | [] => (n, 0)
  | d :: digits =>
    if 10 * n + d < Nat.pow 2 64 then takeWord (10 * n + d) digits else (n, digits.length + 1)

/-- The significand and exponent of a number text. Digits beyond what fits 64
bits are not read: before the point each counts as a factor of ten, after it
none counts. -/
def NumberText.toDecimal (text : NumberText) : Nat × Int :=
  let (n, dropped) := takeWord 0 text.whole
  let fraction := text.fraction.getD []
  let (n, e) : Nat × Int :=
    let (m, left) := takeWord n fraction
    (m, (dropped : Int) - ((fraction.length - left : Nat) : Int))
  match text.exponent with
  | none => (n, e)
  | some (minus, digits) =>
    (n, if minus then e - (ofDigits digits : Int) else e + (ofDigits digits : Int))

/-- The number a text writes; `none` when it is out of range. An integer that
fits 64 bits stays one, but minus zero does not. -/
def NumberText.toNumber (text : NumberText) : Option Number :=
  let n := ofDigits text.whole
  let isInteger := text.fraction.isNone && text.exponent.isNone
  if isInteger && !text.minus && n < Nat.pow 2 64 then some (.natural n)
  else if isInteger && text.minus && 0 < n && n ≤ Nat.pow 2 63 then some (.negative n)
  else
    let (significand, exponent) := text.toDecimal
    (Decimal.ofDecimal significand exponent).map (.real text.minus)

/-! ## Values -/

/-- How deep arrays and objects may be nested. -/
def nestingLimit : Nat := 127

mutual

/-- The value a form stands for, if it is nested at most `room` levels and its
numbers are in range. -/
def Form.toValue : Nat → Form → Option Value
  | _, .null => some .null
  | _, .bool b => some (.bool b)
  | _, .number text => text.toNumber.map .number
  | _, .string s => some (.string s)
  | _, .broken => none
  | 0, .array _ => none
  | 0, .object _ => none
  | room + 1, .array items => (valuesOf room items).map .array
  | room + 1, .object members => (membersOf room [] members).map .object

/-- The values of the items of an array. -/
def valuesOf : Nat → List Form → Option (List Value)
  | _, [] => some []
  | room, item :: items => do
    let value ← item.toValue room
    let values ← valuesOf room items
    some (value :: values)

/-- The members of an object, put one after the other into `found`. -/
def membersOf : Nat → Members → List (String × Form) → Option Members
  | _, found, [] => some found
  | room, found, (key, form) :: members => do
    let value ← form.toValue room
    membersOf room (found.insert key value) members

end

end PackageOrder.Json
