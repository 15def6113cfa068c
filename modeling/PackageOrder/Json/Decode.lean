/-
PackageOrder.Json.Decode — reading values of a given shape.

A decoder reads a form that may be nested a given number of levels. A record
may be written as an object, in which names that the record does not have are
passed over and those it has may occur only once, or as an array of its fields
in order.
-/
import PackageOrder.Json.Reader

namespace PackageOrder.Json

/-- Reads a value from a form that is nested at most so many levels. -/
abbrev Decoder (α : Type) := Nat → Form → Option α

namespace Decoder

/-- A truth value. -/
def bool : Decoder Bool
  | _, .bool b => some b
  | _, _ => none

/-- A text. -/
def text : Decoder String
  | _, .string s => some s
  | _, _ => none

/-- A value that may be null instead. -/
def optional {α : Type} (decode : Decoder α) : Decoder (Option α)
  | _, .null => some none
  | room, form => (decode room form).map some

/-- An object of any values. -/
def members : Decoder Members
  | room, form => (form.toValue room).bind Value.object?

/-- The items of an array. -/
def list {α : Type} (decode : Decoder α) : Decoder (List α)
  | room + 1, .array items => items.mapM (decode room)
  | _, _ => none

/-- A pair added to a table: in its place if the key is there, else at the end. -/
def insertPair {α : Type} (key : String) (value : α) : List (String × α) → List (String × α)
  | [] => [(key, value)]
  | (k, v) :: rest => if k = key then (k, value) :: rest else (k, v) :: insertPair key value rest

/-- An object as a table, in which the last value of a key counts. -/
def table {α : Type} (decode : Decoder α) : Decoder (List (String × α))
  | room + 1, .object entries => do
    let pairs ← entries.mapM fun (key, form) => (decode room form).map (key, ·)
    return pairs.foldl (fun found (key, value) => insertPair key value found) []
  | _, _ => none

/-- A choice among names: one of them, or an object with it alone and nothing
under it. -/
def choice {α : Type} (ofName? : String → Option α) : Decoder α
  | _, .string name => ofName? name
  | _ + 1, .object [(name, .null)] => ofName? name
  | _ + 1, .object [(name, .object [])] => ofName? name
  | _, _ => none

end Decoder

/-- The fields of a record by their names, those that are not given left out,
and the room that is left in them. -/
structure Fields where
  given : List (String × Form)
  room : Nat

/-- The fields of a record with some names. Written as an array it may end
early only if `mayLack` says that every field has a default. -/
def fields? (names : List String) (mayLack : Bool) : Decoder Fields
  | room + 1, .object entries =>
    let given := entries.filter (names.contains ·.1)
    if (given.map (·.1)).Nodup then some ⟨given, room⟩ else none
  | room + 1, .array items =>
    if items.length = names.length ∨ (mayLack ∧ items.length < names.length) then
      some ⟨names.zip items, room⟩
    else none
  | _, _ => none

namespace Fields

/-- A field that has to be given. -/
def required {α : Type} (fields : Fields) (name : String) (decode : Decoder α) : Option α :=
  (fields.given.lookup name).bind (decode fields.room)

/-- A field with a value for when it is not given. -/
def withDefault {α : Type} (fields : Fields) (name : String) (decode : Decoder α) (default : α) :
    Option α :=
  match fields.given.lookup name with
  | some form => decode fields.room form
  | none => some default

end Fields

/-- The value that a text writes, read by a decoder. -/
def decode? {α : Type} (decode : Decoder α) (text : String) : Option α :=
  (readForm? text.toList).bind (decode nestingLimit)

end PackageOrder.Json
