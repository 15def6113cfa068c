/-
PackageOrder.Script.Parse.Function — functions, and the members of objects and
classes.

A function without a body is a declaration of its type, which only typed source
holds.
-/
import PackageOrder.Script.Parse.Types

namespace PackageOrder.Script

/-- Whether a statement is a string alone. -/
def Stmt.isDirective : Stmt → Bool
  | .expression (.string _) => true
  | _ => false

/-- The statements of a body without the directives it opens with. -/
def withoutDirectives (body : List Stmt) : List Stmt :=
  body.dropWhile Stmt.isDirective

namespace Parse

variable (g : Grammar)

/-! ## Bodies -/

/-- A step inside a function. -/
def inFunction {α : Type} (isAsync isGenerator : Bool) (p : Parse α) : Parse α :=
  within (fun scope =>
    { scope with
      allowIn := true, inAwait := isAsync, inYield := isGenerator, inDecorator := false }) p

/-- A step inside a body that goes on with the expressions around it. -/
def inBody {α : Type} (isAsync : Bool) (p : Parse α) : Parse α :=
  within (fun scope => { scope with inAwait := isAsync, inYield := false }) p

/-- Statements in braces. -/
def bracedStatements : Parse (List Stmt) := do
  expectSign "\x7b"
  let body ← repeated do
    if ← atSign "\x7d" then return none else return some (← g.statement false)
  expectSign "\x7d"
  return body

/-- A function from its type parameters on; one that exists elsewhere ends as a
statement does. -/
def functionRest (isAsync isGenerator : Bool) (elsewhere : Bool := false) : Parse Function :=
  inFunction isAsync isGenerator do
    typeParameters g
    let given ← parameters g
    resultAnnotation g
    if ← atSign "\x7b" then
      let body ← bracedStatements g
      if elsewhere then endStatement
      return .mk given (withoutDirectives body)
    if (← read).typescript then
      endStatement
      return .mk given []
    failure

/-- A function from its keyword on; an expression needs no name. -/
def functionFrom (isAsync needsName : Bool) (elsewhere : Bool := false) : Parse Function := do
  expectWord "function"
  let isGenerator ← eatSign "*"
  if ← atIdentifier then next
  else if needsName && (← word?).isSome then failure
  functionRest g isAsync isGenerator elsewhere

/-- Whether a function that waits comes next. -/
def atAsyncFunction : Parse Bool := do
  return (← atWord "async") && (← wordFollows "function")

/-! ## Arrow functions -/

/-- Whether an arrow function comes next, as far as a few tokens tell. -/
inductive Guess where
  | no
  | maybe
  | yes

/-- The guess after an opening bracket. -/
def guessInBracket : Parse Guess := do
  if ← eatSign ")" then
    return if ← atSignOf ["=>", ":", "\x7b"] then .yes else .no
  if ← atSignOf ["[", "\x7b"] then return .maybe
  if ← eatSign "..." then
    return if (← atIdentifier) || (← atSignOf ["[", "\x7b"]) then .yes else .no
  let second := (← here).token
  next
  if let .word word _ := second then
    if modifierWords.contains word && word != "async" && (← atIdentifier) then
      return if ← atWord "as" then .no else .yes
  if !isIdentifier second && second != .word "this" false then return .no
  if ← atSign ":" then return .yes
  if ← eatSign "?" then
    return if ← atSignOf [":", ",", "=", ")"] then .yes else .no
  return if ← atSignOf [",", "=", ")"] then .maybe else .no

/-- The guess after an opening angle bracket. -/
def guessInAngle : Parse Guess := do
  if !(← atIdentifier) && !(← atWord "const") then return .no
  if !(← read).markup then return .maybe
  let _ ← eatWord "const"
  next
  if ← eatWord "extends" then
    if ← atSignOf ["=", ">", "/"] then return .no
    return if ← atIdentifier then .maybe else .yes
  return if ← atSignOf [",", "="] then .yes else .no

/-- Whether an arrow function with brackets comes next. -/
def guessArrow : Parse Guess :=
  ahead .no do
    if ← eatWord "async" then
      if ← afterNewline then return .no
    if ← eatSign "(" then guessInBracket
    else if ← eatSign "<" then guessInAngle
    else return .no

/-- The body of an arrow function, and whether an arrow function in it may
state its result. -/
def arrowBody (isAsync types : Bool) : Parse (List Stmt) :=
  inBody isAsync do
    if ← atSign "\x7b" then return withoutDirectives (← bracedStatements g)
    return [.expression (← g.assignment types)]

/-- An arrow function with brackets. Where it may not state its result, as in
the middle of a conditional expression, one with a stated result has to be
followed by a colon. -/
def bracketArrow (types : Bool) : Parse Expr := do
  let isAsync ← eatWord "async"
  let (given, stated) ← within (fun scope => { scope with inAwait := scope.inAwait || isAsync }) do
    typeParameters g
    let given ← parameters g
    let stated ← atSign ":"
    resultAnnotation g
    return (given, stated)
  expectSign "=>"
  let body ← arrowBody g isAsync types
  if !types && stated && !(← atSign ":") then failure
  return .arrow (.mk given body)

/-- An arrow function with brackets, where one may stand. -/
def bracketArrow? (types : Bool) : Parse (Option Expr) := do
  match ← guessArrow with
  | .no => return none
  | .yes => return some (← bracketArrow g true)
  | .maybe =>
    let left := (← here).text.length
    if (← here).refuted.contains left then return none
    match ← attempt (bracketArrow g types) with
    | some found => return some found
    | none =>
      refute
      return none

/-- The rest of an arrow function after its only parameter. -/
def arrowRest (name : String) (isAsync types : Bool) : Parse Expr := do
  expectSign "=>"
  return .arrow (.mk [.mk (some name) [] none] (← arrowBody g isAsync types))

/-- Whether an arrow function without brackets that waits comes next. -/
def atAsyncArrow : Parse Bool :=
  lookahead do
    expectWord "async"
    if ← afterNewline then return false
    let _ ← identifier
    atSign "=>"

/-! ## Objects -/

/-- A member of an object. -/
def objectMember : Parse Member := do
  if ← eatSign "..." then return .spread (← withIn (g.assignment true))
  let marks ← modifiers false false
  if (← eatModifier "get") || (← eatModifier "set") then
    let key ← memberKey g false
    return .entry key.parts false (.function (← functionRest g false false))
  let isGenerator ← eatSign "*"
  let named ← isFreeName (← here).token
  let key ← memberKey g false
  if isGenerator || (← atSignOf ["(", "<"]) then
    let value ← functionRest g (marks.contains "async") isGenerator
    return .entry key.parts false (.function value)
  match key with
  | .word name =>
    if named && !(← atSign ":") then
      return .entry (← initializer g).toList true (.name name)
  | _ => pure ()
  expectSign ":"
  return .entry key.parts false (← withIn (g.assignment true))

/-- An object. -/
def object : Parse Expr := do
  expectSign "\x7b"
  let members ← separated "\x7d" (objectMember g)
  expectSign "\x7d"
  return .object members

/-! ## Classes -/

/-- Whether the constructor of a class comes next: its name, or its name as a
string before an opening bracket. -/
def atConstructor : Parse Bool := do
  match (← here).token with
  | .word name _ => return name == "constructor"
  | .string value => return value == "constructor" && (← peek).1 == .sign "("
  | _ => return false

/-- A member of a class from its key on. -/
def classValue (decorations : List Expr) (marks : List String) : Parse Member := do
  if !marks.contains "static" && (← atConstructor) then
    next
    let value ← functionRest g (marks.contains "async") false
    return .entry decorations false (.function value)
  let isGenerator ← eatSign "*"
  let key ← memberKey g true
  let parts := decorations ++ key.parts
  let _ ← eatSign "?"
  if isGenerator || (← atSignOf ["(", "<"]) then
    let value ← functionRest g (marks.contains "async") isGenerator
    return .entry parts false (.function value)
  let _ ← eatSign "!"
  annotation g
  let value ←
    if ← eatSign "=" then
      if marks.contains "accessor" then pure (some (← g.assignment true))
      else pure (some (← within (fun scope =>
        { scope with allowIn := true, inAwait := false, inYield := false }) g.expression))
    else pure none
  endStatement
  return .entry parts false (value.getD .atom)

/-- A member of a class; none is a signature of keys. -/
def classMember : Parse (Option Member) := do
  let decorations ← decorators g
  let marks ← modifiers true true
  if (← atWord "static") && (← peek).1 == .sign "\x7b" then
    next
    return some (.block (← inBody true (bracedStatements g)))
  if (← eatModifier "get") || (← eatModifier "set") then
    let key ← memberKey g true
    let value ← functionRest g false false
    return some (.entry (decorations ++ key.parts) false (.function value))
  if ← atIndexSignature then
    indexSignature g
    return none
  return some (← classValue g decorations marks)

/-- What a class or an interface extends, and what it implements. -/
def heritage : Parse (List Expr) := do
  let clauses ← repeated do
    if ← eatWord "extends" then
      let bases ← listed do
        let base ← g.leftHand
        typeArguments g
        return base
      return some bases
    if ← eatWord "implements" then
      let _ ← listed do
        dottedName
        typeArguments g
      return some []
    return none
  return clauses.flatten

/-- A class from its keyword on, after its decorators. -/
def classFrom (decorations : List Expr) : Parse Expr := do
  expectWord "class"
  if (← atIdentifier) && !(← atWord "implements") then next
  typeParameters g
  let bases ← heritage g
  expectSign "\x7b"
  let members ← repeated do
    if ← atSign "\x7d" then return none
    if ← eatSign ";" then return some none
    return some (← classMember g)
  expectSign "\x7d"
  return .class (decorations ++ bases) (members.filterMap id)

end Parse

end PackageOrder.Script
