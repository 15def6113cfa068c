/-
PackageOrder.Script.Parse.Expression — expressions.
-/
import PackageOrder.Script.Parse.Function
import PackageOrder.Script.Target

namespace PackageOrder.Script.Parse

variable (g : Grammar)

/-! ## Primary expressions -/

/-- The substitutions of a template, at its first chunk; each holds one
expression or several. -/
def templateParts : Bool → Parse (List Expr)
  | true => do
    next
    return []
  | false => do
    next
    let (parts, _) ← extended (α := List Expr × Bool) ([], false) fun (parts, finished) => do
      if finished then return none
      let part ← withIn g.expression
      if !(← atSign "\x7d") then return some (part :: parts, false)
      return some (part :: parts, ← templateChunk)
    return parts.reverse

/-- An item of an array. -/
def arrayItem : Parse Expr := do
  if ← atSign "," then return .hole
  if ← eatSign "..." then return .spread (← withIn (g.assignment true))
  withIn (g.assignment true)

/-- Expressions in brackets. -/
def bracketed : Parse Expr := do
  expectSign "("
  let inner ← withIn g.expression
  expectSign ")"
  return .paren inner

/-- The arguments of a call. -/
def callArguments : Parse (List Expr) := do
  expectSign "("
  let given ← within (fun scope => { scope with allowIn := true, inDecorator := false }) do
    separated ")" do
      if ← eatSign "..." then return .spread (← g.assignment true) else g.assignment true
  expectSign ")"
  return given

/-- An expression without its type arguments. -/
def plainCallee : Expr → Expr
  | .instantiated inner => inner
  | e => e

/-- A construction, or the question what is being constructed. -/
def construction : Parse Expr := do
  expectWord "new"
  if ← eatSign "." then
    expectWord "target"
    return .atom
  let callee := plainCallee (← g.callee)
  if ← atSign "(" then return .construct callee (← callArguments g)
  return .construct callee []

/-- An import in an expression. -/
def importExpression : Parse Expr := do
  expectWord "import"
  if ← eatSign "." then
    if ← eatWord "meta" then return .atom
    if !(← atWordOf ["source", "defer"]) then failure
    next
  expectSign "("
  let first ← withIn (g.assignment true)
  let options ←
    if (← eatSign ",") && !(← atSign ")") then pure [← withIn (g.assignment true)] else pure []
  let _ ← eatSign ","
  expectSign ")"
  return .dynamicImport (first :: options)

/-- A class after its decorators, with modifiers in front of it. -/
def modifiedClass (decorations : List Expr) : Parse Expr := do
  let _ ← modifiers false false
  classFrom g decorations

/-- A class with decorators. -/
def decoratedClass : Parse Expr := do
  modifiedClass g (← decorators g)

/-- A primary expression that starts with a word. -/
def wordExpression (word : String) : Parse Expr := do
  match word with
  | "this" | "null" | "true" | "false" | "super" =>
    next
    return .atom
  | "new" => construction g
  | "import" => importExpression g
  | "function" => return .function (← functionFrom g false false)
  | "class" => classFrom g []
  | word =>
    if ← atAsyncFunction then
      next
      return .function (← functionFrom g true false)
    let _ ← identifier
    return .name word

/-- Moves over a regular expression, whose opening slash is at hand. -/
def regularExpression : Parse Unit :=
  moveOver? (fun cursor => (scanRegex? (cursor.text.drop 1)).map (((), ·)))
    fun cursor _ _ found => by
      obtain ⟨rest, scanned, same⟩ := Option.map_eq_some_iff.mp found
      simp only [Prod.mk.injEq, true_and] at same
      exact (same ▸ scanRegex?_suffix scanned).trans (List.drop_suffix 1 _)

/-- A primary expression. -/
def primary : Parse Expr := do
  let cursor ← here
  match cursor.token with
  | .word word _ => wordExpression g word
  | .string value =>
    next
    return .string value
  | .number =>
    next
    return .atom
  | .template whole => return .template (← templateParts g whole)
  | .sign "/" | .sign "/=" =>
    if !cursor.valid then failure
    regularExpression
    return .atom
  | .sign "[" =>
    next
    let items ← separated "]" (arrayItem g)
    expectSign "]"
    return .array items
  | .sign "\x7b" => object g
  | .sign "(" => bracketed g
  | .sign "@" => decoratedClass g
  | _ => failure

/-! ## Members and calls -/

/-- Whether an expression may go on after type arguments. -/
def mayFollowTypeArguments : Parse Bool := do
  let scope ← read
  let infixWords := ["instanceof", "as", "satisfies"] ++ (if scope.allowIn then [] else ["in"])
  match (← here).token with
  | .template _ => return true
  | .sign sign =>
    if sign == "(" then return true
    if ["<", ">", "+", "-"].contains sign then return false
    return (← afterNewline)
      || !(["[", "\x7b", "~", "!", "++", "--", "/=", "@"].contains sign)
  | .word word _ => return (← afterNewline) || infixWords.contains word
  | .number | .string _ | .privateName => afterNewline
  | _ => return true

/-- Type arguments in an expression, if that is what comes next. -/
def eatTypeArguments : Parse Bool := do
  if !(← read).typescript then return false
  let found ← attempt do
    if !(← eatOpenAngle) then failure
    let _ ← separated ">" (closedType g)
    if (← operator?) != some ">" then failure
    next
    if !(← mayFollowTypeArguments) then failure
  return found.isSome

/-- A member or template after an expression, and whether a part of what stands
so far may be missing, which `mayChain` allows to be said here. -/
def memberStep (mayChain : Bool) : Expr × Bool → Parse (Option (Expr × Bool))
  | (e, chained) => do
    let cursor ← here
    match cursor.token with
    | .sign "." =>
      next
      return some (← named e, chained)
    | .sign "?." =>
      if !mayChain then return none
      let (after, _) ← peek
      if after == .sign "[" then
        next
        return some (← computed e, true)
      if isWordToken after || after == .privateName then
        next
        return some (← named e, true)
      return none
    | .sign "[" =>
      if (← read).inDecorator then return none
      return some (← computed e, chained)
    | .sign "!" =>
      if (← read).typescript && !cursor.newline then
        next
        return some (.typed e, chained)
      return none
    | .template whole => return some (.tagged (plainCallee e) (← templateParts g whole), chained)
    | .sign "<" | .sign "<<" =>
      if ← eatTypeArguments g then return some (.instantiated e, chained)
      return none
    | _ => return none
where
  named (e : Expr) : Parse Expr := do
    if (← here).token == .privateName then
      next
      return .privateMember e
    let _ ← anyWord
    return .member e
  computed (e : Expr) : Parse Expr := do
    expectSign "["
    let key ← withIn g.expression
    expectSign "]"
    return .index e key

/-- A primary expression with its members, and whether a part of it may be
missing. -/
def membered (mayChain : Bool) : Parse (Expr × Bool) := do
  extended (← primary g, false) (memberStep g mayChain)

/-- A primary expression with its members. -/
def callee : Parse Expr := do
  return (← membered g false).1

/-- A call after an expression, and the members after the call. -/
def callStep : Expr × Bool → Parse (Option (Expr × Bool))
  | (e, chained) => do
    if ← eatSign "?." then
      let _ ← eatTypeArguments g
      match (← here).token with
      | .template whole =>
        let e := Expr.tagged (plainCallee e) (← templateParts g whole)
        return some (← extended (e, true) (memberStep g true))
      | _ =>
        let e := Expr.call e (← callArguments g)
        return some (← extended (e, true) (memberStep g true))
    if ← atSign "(" then
      let e := Expr.call (plainCallee e) (← callArguments g)
      return some (← extended (e, chained) (memberStep g true))
    return none

/-- A primary expression with its members and calls. -/
def leftHand : Parse Expr := do
  let (e, chained) ← extended (← membered g true) (callStep g)
  return if chained then .chain e else e

/-! ## Operators -/

/-- Whether the token after this one starts an operand on the same line. -/
def beforeOperand : Parse Bool := do
  let (after, newline) ← peek
  match after with
  | .word word _ => return !newline && word != "in" && word != "instanceof"
  | .number | .string _ => return !newline
  | _ => return false

/-- Whether a word that waits is the operator. -/
def atAwait : Parse Bool := do
  if !(← atWord "await") then return false
  let (after, _) ← peek
  if after == .sign "=>" then return false
  if (← read).inAwait then return true
  if isWordNamed "of" after then return false
  beforeOperand

/-- Whether a word that yields is the operator. -/
def atYield : Parse Bool := do
  if !(← atWord "yield") then return false
  if (← read).inYield then return true
  beforeOperand

/-- An expression that no operator stands in the middle of. -/
def unary : Parse Expr := do
  if (← atSignOf ["+", "-", "~", "!"]) || (← atWordOf ["delete", "void", "typeof"]) then
    next
    return .unary (← g.unary)
  if ← atSignOf ["++", "--"] then
    next
    let operand ← g.unary
    if !operand.isPlace then failure
    return .update operand
  if ← atSign "<" then
    let scope ← read
    if scope.markup then return ← g.markup true
    if !scope.typescript then failure
    next
    closedType g
    expectSign ">"
    return .typed (← g.unary)
  if ← atAwait then
    next
    let operand ← within (fun scope => { scope with inAwait := true }) g.unary
    return .suspend (some operand)
  let operand ← leftHand g
  if (← atSignOf ["++", "--"]) && !(← afterNewline) then
    next
    if !operand.isPlace then failure
    return .update operand
  return operand

/-- How tightly an operator between two expressions binds. -/
def strength? (operator : String) : Option Nat :=
  match operator with
  | "??" => some 1
  | "||" => some 2
  | "&&" => some 3
  | "|" => some 4
  | "^" => some 5
  | "&" => some 6
  | "==" | "!=" | "===" | "!==" => some 7
  | "<" | ">" | "<=" | ">=" | "instanceof" | "in" | "as" | "satisfies" => some 8
  | "<<" | ">>" | ">>>" => some 9
  | "+" | "-" => some 10
  | "*" | "/" | "%" => some 11
  | "**" => some 12
  | _ => none

/-- The operator between two expressions at hand, and its strength. -/
def infixOperator? : Parse (Option (String × Nat)) := do
  let found ←
    match ← word? with
    | some word => pure (some word)
    | none => operator?
  return do
    let operator ← found
    return (operator, ← strength? operator)

/-- Moves over the operator between two expressions at hand. -/
def eatInfix : Parse Unit := do
  if (← word?).isSome then next
  else
    let _ ← eatOperator

/-- An operator after an expression and what it applies to, if it binds more
tightly than a given one; powers go from the right. -/
def binaryStep (least : Nat) (left : Expr) : Parse (Option Expr) := do
  let some (operator, strength) ← infixOperator? | return none
  let scope ← read
  if (if operator == "**" then strength < least else strength ≤ least) then return none
  if operator == "in" && !scope.allowIn then return none
  if operator == "as" || operator == "satisfies" then
    if ← afterNewline then return none
    eatInfix
    closedType g
    return some (.typed left)
  eatInfix
  let right ← g.binary strength
  if ["??", "||", "&&"].contains operator then return some (.logical left right)
  return some (.binary left right)

/-- An expression whose operators bind more tightly than a given one. -/
def binary (least : Nat) : Parse Expr := do
  let left ←
    if (← here).token == .privateName then
      next
      if !(← read).allowIn || !(← atWord "in") || (← peek).1 == .privateName then failure
      pure .atom
    else unary g
  extended left (binaryStep g least)

/-! ## Assignments -/

/-- The operators that assign. -/
def assignmentOperators : List String :=
  ["=", "+=", "-=", "*=", "/=", "%=", "**=", "<<=", ">>=", ">>>=", "&=", "|=", "^=", "&&=", "||=",
    "??="]

/-- An expression that yields to the caller of the function it stands in. -/
def yieldExpression : Parse Expr := do
  expectWord "yield"
  if ← afterNewline then return .suspend none
  let delegates ← eatSign "*"
  let ends := (← atSignOf [";", "\x7d", ")", "]", ":", ","]) || (← atEnding)
  if ends && !delegates then return .suspend none
  let operand ← within (fun scope => { scope with inYield := true }) (g.assignment true)
  return .suspend (some operand)

/-- What an assignment or a conditional expression goes on with after its first
part. -/
def assignmentRest (left : Expr) (types : Bool) : Parse Expr := do
  if let some operator ← operator? then
    if assignmentOperators.contains operator then
      if !left.isTarget then failure
      let _ ← eatOperator
      return .assign (operator == "=") left (← g.assignment types)
  if ← eatSign "?" then
    let yes ← withIn (g.assignment false)
    expectSign ":"
    return .conditional left yes (← g.assignment types)
  return left

/-- An expression without commas outside brackets. -/
def assignment (types : Bool) : Parse Expr := do
  if ← atYield then return ← yieldExpression g
  if let some arrow ← bracketArrow? g types then return arrow
  if ← atAsyncArrow then
    next
    return ← arrowRest g (← identifier) true types
  let left ← binary g 0
  if ← atSign "=>" then
    if let .name name := left then return ← arrowRest g name false types
  assignmentRest g left types

/-- Expressions with commas between them. -/
def expression : Parse Expr :=
  within (fun scope => { scope with inDecorator := false }) do
    match ← listed (g.assignment true) with
    | [e] => return e
    | items => return .sequence items

end PackageOrder.Script.Parse
