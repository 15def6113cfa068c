/-
PackageOrder.Script.Parse.Binding — member names, patterns and parameters.

A pattern is kept as the name it is, if it is one, and the expressions in it:
computed keys and the values of parts that are missing. A parameter that takes
the rest of the arguments is kept without its name, and the place of `this` in a
typed function is not kept.
-/
import PackageOrder.Script.Parse

namespace PackageOrder.Script.Parse

variable (g : Grammar)

/-! ## Annotations -/

/-- The type of a name, where types are written. -/
def annotation : Parse Unit := do
  if (← read).typescript then
    if ← eatSign ":" then g.type

/-- A question mark after a name, where types are written. -/
def optionalMark : Parse Unit := do
  if (← read).typescript then
    let _ ← eatSign "?"

/-- Decorators and the expressions in them. -/
def decorators : Parse (List Expr) :=
  repeated do
    if ← eatSign "@" then
      return some (← within (fun scope => { scope with inDecorator := true }) g.leftHand)
    else
      return none

/-! ## Keys -/

/-- What a member is found by. -/
inductive Key where
  | word (name : String)
  | literal
  | computed (key : Expr)

/-- The expressions in a key. -/
def Key.parts : Key → List Expr
  | .computed key => [key]
  | _ => []

/-- The key of a member, which may be private to a class. -/
def memberKey (mayBePrivate : Bool) : Parse Key := do
  match (← here).token with
  | .word name _ =>
    next
    return .word name
  | .number | .string _ =>
    next
    return .literal
  | .privateName =>
    if mayBePrivate then
      next
      return .literal
    else
      failure
  | .sign "[" =>
    next
    let key ← withIn (g.assignment true)
    expectSign "]"
    return .computed key
  | _ => failure

/-! ## Patterns -/

/-- The value that a part has when it is missing. -/
def initializer : Parse (Option Expr) := do
  if ← eatSign "=" then return some (← withIn (g.assignment true)) else return none

/-- A name or pattern with its type and the value for when it is missing. -/
def bindingElement : Parse Binding := do
  let ⟨name, parts, _⟩ ← g.pattern
  optionalMark
  annotation g
  return .mk name parts (← initializer g)

/-- The expressions in a part of a pattern. -/
def Binding.expressions : Binding → List Expr
  | .mk _ parts value => parts ++ value.toList

/-- The expressions in a part of a pattern. -/
def patternElement : Parse (List Expr) := do
  return Binding.expressions (← bindingElement g)

/-- Items with commas between them before a closing sign, which is not moved
over. The item after dots takes the rest and has to be the last one. -/
def separatedToRest {α : Type} (close : String) (item rest : Parse α) : Parse (List α) := do
  let (items, _) ← extended (α := List α × Bool) ([], false) fun (items, finished) => do
    if ← atSign close then return none
    if finished then failure
    let finished ← eatSign "..."
    let a ← if finished then rest else item
    if !(← atSign close) then expectSign ","
    return some (a :: items, finished)
  return items.reverse

/-- The expressions in an item of an array pattern. -/
def arrayPatternItem : Parse (List Expr) := do
  if ← atSign "," then return [] else patternElement g

/-- The name that takes the rest of an object. -/
def objectPatternRest : Parse (List Expr) := do
  let .mk (some _) parts none ← bindingElement g | failure
  return parts

/-- The expressions in a property of an object pattern. -/
def objectPatternItem : Parse (List Expr) := do
  let named ← atIdentifier
  let key ← memberKey g false
  if named && !(← atSign ":") then
    return (← initializer g).toList
  expectSign ":"
  return key.parts ++ (← patternElement g)

/-- A name or pattern without a value. -/
def pattern : Parse Binding := do
  if ← eatSign "[" then
    let items ← separatedToRest "]" (arrayPatternItem g) (patternElement g)
    expectSign "]"
    return .mk none items.flatten none
  if ← eatSign "\x7b" then
    let items ← separatedToRest "\x7d" (objectPatternItem g) (objectPatternRest g)
    expectSign "\x7d"
    return .mk none items.flatten none
  return .mk (some (← identifier)) [] none

/-! ## Parameters -/

/-- One parameter. -/
def parameter : Parse Binding := do
  let marks ← decorators g
  let _ ← modifiers false false
  let ⟨name, parts, value⟩ ← bindingElement g
  return .mk name (marks ++ parts) value

/-- The parameter that takes the rest of the arguments, without its name. -/
def restParameter : Parse Binding := do
  let ⟨_, parts, value⟩ ← bindingElement g
  return .mk none parts value

/-- Parameters in brackets, with the type of `this` in front of them where types
are written. -/
def parameters : Parse (List Binding) := do
  expectSign "("
  if (← read).typescript then
    if ← eatWord "this" then
      annotation g
      let _ ← eatSign ","
  let all ← separatedToRest ")" (parameter g) (restParameter g)
  expectSign ")"
  return all

end PackageOrder.Script.Parse
