/-
PackageOrder.Script.Parse.Types — types, which are moved over and leave
nothing in the tree.
-/
import PackageOrder.Script.Parse.Binding

namespace PackageOrder.Script.Parse

variable (g : Grammar)

/-! ## Arguments and parameters of types -/

/-- A type in a place that closes it off. -/
def closedType : Parse Unit :=
  within (fun scope => { scope with allowConditional := true }) g.type

/-- Type arguments after an opening bracket. -/
def typeArgumentsRest : Parse Unit := do
  let _ ← separated ">" (closedType g)
  expectSign ">"

/-- Type arguments, if they come next. -/
def typeArguments : Parse Unit := do
  if ← eatSign "<" then typeArgumentsRest g

/-- The type arguments of a named type, on the same line, whose opening bracket
may be the front of a longer sign. -/
def referenceArguments : Parse Unit := do
  if !(← afterNewline) then
    if ← eatOpenAngle then typeArgumentsRest g

/-- A type parameter. -/
def typeParameter : Parse Unit := do
  let _ ← modifiers true false
  let _ ← identifier
  if ← eatWord "extends" then g.type
  if ← eatSign "=" then g.type

/-- Type parameters, where types are written and if they come next. -/
def typeParameters : Parse Unit := do
  if (← read).typescript then
    if ← eatSign "<" then
      let _ ← separated ">" (typeParameter g)
      expectSign ">"

/-- The type of a result, or what a true result says about an argument. -/
def resultType : Parse Unit := do
  if (← word?).isSome && (← wordFollows "is") then
    next
    next
  g.type

/-- The result of a function after a colon. -/
def resultAnnotation : Parse Unit := do
  if (← read).typescript then
    if ← eatSign ":" then resultType g

/-- Type parameters, parameters and result. -/
def signature : Parse Unit := do
  typeParameters g
  let _ ← parameters g
  resultAnnotation g

/-! ## Names of types -/

/-- The rest of a dotted name. -/
def dottedRest : Parse Unit := do
  let _ ← repeated (α := Unit) do
    if ← eatSign "." then
      let _ ← anyWord
      return some ()
    else
      return none

/-- A dotted name. -/
def dottedName : Parse Unit := do
  let _ ← anyWord
  dottedRest

/-- A type of another module. -/
def importedType : Parse Unit := do
  expectWord "import"
  expectSign "("
  closedType g
  if ← eatSign "," then
    let _ ← g.object
    let _ ← eatSign ","
  expectSign ")"
  dottedRest
  referenceArguments g

/-! ## Members of types -/

/-- Moves over the sign that ends a member, if there is one. -/
def endMember : Parse Unit := do
  if !(← eatSign ",") then
    let _ ← eatSign ";"

/-- Whether keys of a kind come next: a name and its type in square brackets. -/
def atIndexSignature : Parse Bool := do
  if !(← atSign "[") then return false
  lookahead do
    next
    if ← atSignOf ["...", "]"] then return true
    if ← atWordOf modifierWords then
      next
      if ← atIdentifier then return true
    else
      if !(← atIdentifier) then return false
      next
    if ← atSignOf [":", ","] then return true
    if !(← eatSign "?") then return false
    atSignOf [":", ",", "]"]

/-- A type that has to be stated. -/
def statedType : Parse Unit := do
  if !(← read).typescript then failure
  expectSign ":"
  g.type

/-- Keys of a kind and their type. -/
def indexSignature : Parse Unit := do
  expectSign "["
  let _ ← anyWord
  statedType g
  expectSign "]"
  statedType g
  endMember

/-- A member of an object type. -/
def typeMember : Parse Unit := do
  if ← atSignOf ["(", "<"] then
    signature g
    return ← endMember
  if (← atWord "new") && [Token.sign "(", .sign "<"].contains (← peek).1 then
    next
    signature g
    return ← endMember
  let _ ← modifiers true false
  if (← eatModifier "get") || (← eatModifier "set") then
    let _ ← memberKey g false
    let _ ← parameters g
    resultAnnotation g
    return ← endMember
  if ← atIndexSignature then return ← indexSignature g
  let _ ← memberKey g false
  let _ ← eatSign "?"
  if ← atSignOf ["(", "<"] then signature g else annotation g
  endMember

/-- The members of an object type in braces. -/
def typeMembers : Parse Unit := do
  expectSign "\x7b"
  let _ ← repeated (α := Unit) do
    if ← atSign "\x7d" then return none
    typeMember g
    return some ()
  expectSign "\x7d"

/-- Whether an object type is made from the keys of another. -/
def atMappedType : Parse Bool :=
  lookahead do
    expectSign "\x7b"
    if (← eatSign "+") || (← eatSign "-") then return ← atWord "readonly"
    let _ ← eatWord "readonly"
    expectSign "["
    next
    atWord "in"

/-- An object type that is made from the keys of another. -/
def mappedType : Parse Unit := do
  expectSign "\x7b"
  if (← eatSign "+") || (← eatSign "-") then expectWord "readonly"
  else
    let _ ← eatWord "readonly"
  expectSign "["
  let _ ← identifier
  expectWord "in"
  closedType g
  if ← eatWord "as" then closedType g
  expectSign "]"
  if (← eatSign "+") || (← eatSign "-") then expectSign "?"
  else
    let _ ← eatSign "?"
  if ← eatSign ":" then g.type
  let _ ← eatSign ";"
  expectSign "\x7d"

/-- An item of a tuple type. -/
def tupleItem : Parse Unit := do
  let named ← lookahead do
    let _ ← eatSign "..."
    let _ ← anyWord
    if ← atSign ":" then return true
    return (← eatSign "?") && (← atSign ":")
  let _ ← eatSign "..."
  if named then
    let _ ← anyWord
    let _ ← eatSign "?"
    expectSign ":"
    let _ ← eatSign "..."
  closedType g

/-! ## Types in order of precedence -/

/-- The rest of a template whose substitutions hold types, one or several in
each. -/
def templateTypes : Bool → Parse Unit
  | true => next
  | false => do
    next
    let _ ← repeated (α := Unit) do
      closedType g
      if !(← atSign "\x7d") then return some ()
      if ← templateChunk then return none else return some ()

/-- The words that are types by themselves, unless a point follows. -/
def typeWords : List String :=
  ["any", "bigint", "boolean", "never", "null", "number", "object", "string", "symbol", "undefined",
    "unknown"]

/-- A type that is found by its name. -/
def namedType : Parse Unit := do
  dottedName
  referenceArguments g

/-- A type that is a word or starts with one. -/
def wordType (word : String) : Parse Unit := do
  let (after, newline) ← peek
  if word == "import" then importedType g
  else if word == "typeof" then
    next
    if ← atWord "import" then importedType g
    else
      dottedName
      if !(← afterNewline) then typeArguments g
  else if ["void", "true", "false"].contains word then next
  else if typeWords.contains word then
    if after == .sign "." then namedType g else next
  else if word == "this" then
    next
    if (← atWord "is") && !(← afterNewline) then
      next
      g.type
  else if word == "asserts" && !newline && isWordToken after then
    next
    next
    if ← eatWord "is" then g.type
  else namedType g

/-- What may follow a question mark that stands for a type. -/
def unknownEnds : List String :=
  [",", "\x7d", ")", ">", "=", "|"]

/-- A type without suffixes. -/
def plainType : Nat → Parse Unit
  | 0 => failure
  | levels + 1 => do
    match (← here).token with
    | .word word _ => wordType g word
    | .string _ | .number => next
    | .template whole => templateTypes g whole
    | .sign "-" =>
      next
      if (← here).token == .number then next else failure
    | .sign "\x7b" => if ← atMappedType then mappedType g else typeMembers g
    | .sign "[" =>
      next
      let _ ← separated "]" (tupleItem g)
      expectSign "]"
    | .sign "(" =>
      next
      closedType g
      expectSign ")"
    | .sign "?" =>
      next
      if !(← atSignOf unknownEnds) then g.type
    | .sign "!" =>
      next
      plainType levels
    | _ => failure

/-- The words that are no names of variables and may start a type. -/
def typeStarters : List String :=
  ["break", "false", "function", "import", "new", "null", "this", "true", "typeof", "void"]

/-- Whether a type may start at the token, so far as a few tokens tell; an
opening bracket has to hold a type or a parameter, and brackets may nest. -/
def atTypeStart : Nat → Parse Bool
  | 0 => return false
  | levels + 1 => do
    match (← here).token with
    | .string _ | .number | .template _ => return true
    | .word word _ =>
      return typeStarters.contains word
        || !(reservedWords.contains word || word == "await" || word == "yield")
    | .sign "-" => return (← peek).1 == .number
    | .sign "(" =>
      lookahead do
        next
        if (← atIdentifier) || (← atWordOf modifierWords) then return true
        if (← atSignOf [")", "...", "@"]) || (← here).token == .privateName then return true
        atTypeStart levels
    | .sign sign => return ["\x7b", "[", "<", "|", "&", "*", "?", "..."].contains sign
    | _ => return false

/-- A type with its suffixes. A question mark is one unless a type follows, as
in the middle of a conditional type. -/
def suffixedType : Parse Unit := do
  let steps := (← read).steps
  plainType g steps
  let _ ← repeated (α := Unit) do
    if ← afterNewline then return none
    if ← eatSign "!" then return some ()
    if ← atSign "?" then
      let goesOn ← lookahead do
        next
        atTypeStart steps
      if goesOn then return none
      next
      return some ()
    if ← eatSign "[" then
      if ← atTypeStart steps then closedType g
      expectSign "]"
      return some ()
    return none

/-- The bound of an inferred type, unless it is the test of a conditional type
that goes on. -/
def inferredBound : Parse Unit := do
  let _ ← attempt do
    expectWord "extends"
    within (fun scope => { scope with allowConditional := false }) g.type
    if (← read).allowConditional && (← atSign "?") then failure

/-- A type with its operators in front. -/
def operatorType : Parse Unit := do
  let _ ← repeated (α := Unit) do
    if ← atWordOf ["keyof", "unique", "readonly"] then
      next
      return some ()
    else
      return none
  if ← eatWord "infer" then
    let _ ← identifier
    inferredBound g
  else
    within (fun scope => { scope with allowConditional := true }) (suffixedType g)

/-- Whether a function type starts at an opening bracket. -/
def atFunctionBracket : Parse Bool :=
  lookahead do
    expectSign "("
    if ← atSignOf [")", "..."] then return true
    if ← atWordOf modifierWords then
      let _ ← modifiers false false
    if (← atWord "this") || (← atIdentifier) then next
    else
      let _ ← g.pattern
    if ← atSignOf [":", ",", "?", "="] then return true
    if ← eatSign ")" then atSign "=>" else return false

/-- Whether a type of functions or constructors comes next. -/
def atFunctionType : Parse Bool := do
  if (← atSign "<") || (← atWord "new") then return true
  if ← atWord "abstract" then return (← peek).1 == .word "new" false
  atFunctionBracket g

/-- A type of functions or constructors. What stands between the parameters and
the result is not looked at. -/
def functionType : Parse Unit := do
  let _ ← eatWord "abstract"
  let _ ← eatWord "new"
  typeParameters g
  let _ ← parameters g
  next
  within (fun scope => { scope with allowConditional := true }) (resultType g)

/-- Parts with a sign between them and perhaps before them. -/
def joinedTypes (sign : String) (part : Parse Unit) : Parse Unit := do
  let _ ← eatSign sign
  part
  let _ ← repeated (α := Unit) do
    if ← eatSign sign then
      part
      return some ()
    else
      return none

/-- A type. -/
def anyType : Parse Unit := do
  if ← atFunctionType g then return ← functionType g
  joinedTypes "|" (joinedTypes "&" (operatorType g))
  if (← read).allowConditional && !(← afterNewline) then
    if ← eatWord "extends" then
      within (fun scope => { scope with allowConditional := false }) g.type
      expectSign "?"
      closedType g
      expectSign ":"
      closedType g

end PackageOrder.Script.Parse
