/-
PackageOrder.Script.Parse.Statement — statements and declarations.
-/
import PackageOrder.Script.Parse.Expression

namespace PackageOrder.Script.Parse

variable (g : Grammar)

/-! ## Variables -/

/-- A variable with its value. -/
def declarator : Parse Binding := do
  let ⟨name, parts, _⟩ ← g.pattern
  if (← read).typescript then
    if name.isSome && !(← afterNewline) then
      let _ ← eatSign "!"
    let _ ← eatSign "?"
    annotation g
  if ← eatSign "=" then return .mk name parts (some (← g.assignment true))
  return .mk name parts none

/-- Variables after the word that declares them. -/
def bindingList : Parse Stmt := do
  return .bindings (← listed (declarator g))

/-- Moves over the word that declares variables, and over the word that waits
where it follows one that lets variables end with their use. -/
def declaringWord : Parse Unit := do
  let endsWithUse ← atWord "using"
  next
  if endsWithUse then
    let _ ← eatWord "await"

/-- A statement that declares variables, from its first word on. -/
def variableStatement : Parse Stmt := do
  declaringWord
  let declared ← bindingList g
  endStatement
  return declared

/-! ## Statements of control -/

/-- An expression in brackets, as in the head of a statement. -/
def condition : Parse Expr := do
  expectSign "("
  let value ← withIn g.expression
  expectSign ")"
  return value

/-- A statement with alternatives. -/
def ifStatement : Parse Stmt := do
  expectWord "if"
  let test ← condition g
  let yes ← g.statement true
  if ← eatWord "else" then return .ifElse test yes (some (← g.statement true))
  return .ifElse test yes none

/-- A loop with its test at the end. -/
def doStatement : Parse Stmt := do
  expectWord "do"
  let body ← g.statement true
  expectWord "while"
  let test ← condition g
  let _ ← eatSign ";"
  return .loop [.expression test] body

/-- The rest of the head of a counted loop, and its body. -/
def countedLoop (start : List Stmt) : Parse Stmt := do
  expectSign ";"
  let test ← if ← atSignOf [";", ")"] then pure [] else pure [.expression (← withIn g.expression)]
  expectSign ";"
  let change ← if ← atSign ")" then pure [] else pure [.expression (← withIn g.expression)]
  expectSign ")"
  return .loop (start ++ test ++ change) (← g.statement true)

/-- The rest of the head of a loop over the keys or items of a value, and its
body. -/
def itemLoop (start : Stmt) : Parse Stmt := do
  let value ←
    if ← eatWord "in" then g.expression
    else
      expectWord "of"
      g.assignment true
  expectSign ")"
  return .loop [start, .expression value] (← g.statement true)

/-- Whether variables that end with their use are declared: the word for them
comes next and a name or the pattern of an object after it, on one line. -/
def atUsing : Parse Bool := do
  let (after, newline) ← peek
  return (← atWord "using") && !newline && (isIdentifier after || after == .sign "\x7b")

/-- Whether variables that are waited for when they go out of use are
declared. -/
def atAwaitedUsing : Parse Bool :=
  lookahead do
    expectWord "await"
    return !(← afterNewline) && (← atUsing)

/-- Whether a word that may declare variables does so in the head of a loop. -/
def atLoopVariables : Parse Bool := do
  if ← atWordOf ["var", "const"] then return true
  let (after, _) ← peek
  if ← atWord "let" then
    return (isWordToken after && !isWordNamed "in" after) || after == .sign "["
      || after == .sign "\x7b"
  if isWordNamed "of" after then return false
  return (← atUsing) || (← atAwaitedUsing)

/-- A loop with its head in front. -/
def forStatement : Parse Stmt := do
  expectWord "for"
  let _ ← eatWord "await"
  expectSign "("
  if ← atSignOf [";", ")"] then return ← countedLoop g []
  if ← atLoopVariables then
    let _ ← eatWord "await"
    let allowIn ← atWord "using"
    declaringWord
    let start ← within (fun scope => { scope with allowIn }) (bindingList g)
    if ← atWordOf ["in", "of"] then return ← itemLoop g start
    return ← countedLoop g [start]
  let start ← within (fun scope => { scope with allowIn := false }) g.expression
  if ← atWordOf ["in", "of"] then
    if !start.isTarget then failure
    return ← itemLoop g (.expression start)
  countedLoop g [.expression start]

/-- A statement that leaves a loop. -/
def jumpStatement : Parse Stmt := do
  next
  if !(← mayEnd) then
    if !(← isFreeName (← here).token) then failure
    next
  endStatement
  return .idle

/-- A statement that leaves a function. -/
def returnStatement : Parse Stmt := do
  next
  if ← mayEnd then
    endStatement
    return .leave none
  let value ← withIn g.expression
  endStatement
  return .leave (some value)

/-- A case of a choice: its test, if it has one, and its statements. -/
def switchCase : Parse (Option Expr × Stmt) := do
  let test ←
    if ← eatWord "default" then pure none
    else
      expectWord "case"
      pure (some (← withIn g.expression))
  expectSign ":"
  let body ← repeated do
    if (← atWordOf ["case", "default"]) || (← atSign "\x7d") then return none
    return some (← g.statement false)
  return (test, .block body)

/-- A choice of cases. -/
def switchStatement : Parse Stmt := do
  expectWord "switch"
  let value ← condition g
  expectSign "\x7b"
  let cases ← repeated do
    if ← atSign "\x7d" then return none else return some (← switchCase g)
  expectSign "\x7d"
  return .switch value (cases.filterMap (·.1)) (cases.map (·.2))

/-- A statement whose failure is handled. -/
def tryStatement : Parse Stmt := do
  expectWord "try"
  let body ← bracedStatements g
  let handler ←
    if ← eatWord "catch" then
      let caught ←
        if ← eatSign "(" then
          let caught ← g.pattern
          annotation g
          expectSign ")"
          pure [.bindings [caught]]
        else pure []
      pure (caught ++ (← bracedStatements g))
    else pure []
  let finish ← if ← eatWord "finally" then bracedStatements g else pure []
  return .guarded body handler finish

/-! ## Expressions as statements -/

/-- An expression as a statement, or a label before a statement. -/
def expressionStatement : Parse Stmt := do
  let value ← g.expression
  if let .name _ := value then
    if ← eatSign ":" then return .labelled (← g.statement true)
  endStatement
  return .expression value

/-- The operators that make a name of a word before them that may also declare
variables. -/
def nameOperators : List String :=
  assignmentOperators
    ++ ["==", "!=", "===", "!==", "<", "<=", ">", "<<", "+", "-", "*", "/", "%", "**", "|", "^",
      "&"]

/-- A statement that starts with a word that may declare variables or be a name
itself. After an assignment or operation a statement has to end; after a member
or call one may follow at once. -/
def letStatement (single : Bool) : Parse Stmt := do
  let (after, _) ← peek
  let operates :=
    match after with
    | .sign sign => nameOperators.contains sign
    | .word word _ => word == "in" || word == "instanceof"
    | _ => false
  if operates then
    let value ← g.assignment true
    endStatement
    return .expression value
  if after == .sign "." || after == .sign "(" then return .expression (← g.expression)
  if (single && after != .sign "[") || after == .sign ";" then
    next
    endStatement
    return .expression (.name "let")
  variableStatement g

/-! ## Typed declarations -/

/-- Whether a declaration that only typed source has comes next. -/
def atTypedDeclaration : Parse Bool :=
  lookahead do
    let exports ← extended (α := Bool) false fun exports => do
      if exports then return none
      if ← atWordOf ["abstract", "accessor", "async", "declare", "private", "protected", "public",
          "readonly"] then
        next
        if ← afterNewline then failure
        return some false
      if ← eatWord "static" then return some false
      if ← eatWord "export" then
        let word ← if ← atWord "type" then do pure (← peek).1 else do pure (← here).token
        let ends := [Token.sign "=", .sign "*", .sign "\x7b", .sign "@"].contains word
          || isWordNamed "default" word || isWordNamed "as" word
        return some ends
      return none
    if exports then return true
    match ← word? with
    | none => return false
    | some word =>
      if ["var", "let", "const", "function", "class", "enum"].contains word then return true
      next
      let cursor ← here
      match word with
      | "interface" | "type" => return isIdentifier cursor.token && !cursor.newline
      | "module" | "namespace" =>
        return !cursor.newline && (isIdentifier cursor.token || isString cursor.token)
      | "global" =>
        return (← atSign "\x7b") || isPlainName cursor.token || (← atWord "export")
      | "import" =>
        return isString cursor.token || (← atSignOf ["*", "\x7b"]) || isIdentifier cursor.token
      | _ => return false
where
  isString : Token → Bool
    | .string _ => true
    | _ => false

/-- The name of a member of an enumeration: a word or a string, or one of fixed
text in square brackets. -/
def enumerationKey : Parse Unit := do
  match (← here).token with
  | .word _ _ | .string _ => next
  | .sign "[" =>
    match ← memberKey g false with
    | .computed (.string _) | .computed (.template []) => pure ()
    | _ => failure
  | _ => failure

/-- The members of an enumeration, from its name on. -/
def enumeration : Parse Stmt := do
  let _ ← identifier
  expectSign "\x7b"
  let values ← separated "\x7d" do
    enumerationKey g
    return (← initializer g).toList
  expectSign "\x7d"
  return .declaration (values.flatten.map .expression)

/-- A namespace from its name on. -/
def namespaceRest : Parse Stmt := do
  match (← here).token with
  | .string _ =>
    next
    if ← atSign "\x7b" then return .declaration (← bracedStatements g)
    endStatement
    return .declaration []
  | _ =>
    let _ ← identifier
    let _ ← repeated (α := Unit) do
      if ← eatSign "." then
        let _ ← identifier
        return some ()
      else
        return none
    return .declaration (← bracedStatements g)

/-- An interface from its name on. -/
def interfaceRest : Parse Stmt := do
  let _ ← identifier
  typeParameters g
  let _ ← heritage g
  typeMembers g
  return .declaration []

/-- A name for a module or for another name, after the name it gives. -/
def importEqualsRest : Parse Stmt := do
  expectSign "="
  let source ←
    if ← eatWord "require" then
      expectSign "("
      let source ← stringValue
      expectSign ")"
      pure (some source)
    else
      dottedName
      pure none
  endStatement
  return .importEquals source

/-- The modifiers in front of a declaration, of which plain source has only the
one for functions that wait. -/
def declarationMarks : Parse (List String) := do
  if (← read).typescript then declarationModifiers
  else if ← atAsyncFunction then
    next
    return ["async"]
  else return []

/-- A declaration that only typed source has, by its word. -/
def typedDeclaration (word : String) : Parse Stmt := do
  if !(← read).typescript then failure
  match word with
  | "interface" =>
    next
    interfaceRest g
  | "type" =>
    next
    let _ ← identifier
    typeParameters g
    expectSign "="
    if ← eatWord "intrinsic" then
      if ← atSign "." then
        dottedRest
        referenceArguments g
    else closedType g
    endStatement
    return .declaration []
  | "enum" =>
    next
    enumeration g
  | "global" =>
    next
    if ← atSign "\x7b" then return .declaration (← bracedStatements g)
    endStatement
    return .declaration []
  | "module" | "namespace" =>
    next
    namespaceRest g
  | _ => failure

/-- A declaration of one of the kinds that all source has, or that typed source
has besides, where modifiers may stand in front of it. -/
def declaration : Parse Stmt := do
  let marks ← declarationMarks
  match ← word? with
  | some "function" =>
    return .function (← functionFrom g (marks.contains "async") true (marks.contains "declare"))
  | some "class" => return .class (← classFrom g [])
  | some "var" | some "let" | some "const" => variableStatement g
  | some word =>
    if word == "using" && (← atUsing) then return ← variableStatement g
    if word == "import" then
      next
      if (← atWord "type") && isIdentifier (← peek).1 then next
      let _ ← identifier
      return ← importEqualsRest
    typedDeclaration g word
  | none => failure

/-! ## Statements -/

/-- The words that may start a declaration of typed source. -/
def typedWords : List String :=
  ["interface", "type", "module", "namespace", "declare", "enum", "private", "protected", "public",
    "abstract", "accessor", "async", "static", "readonly", "global"]

/-- A statement that starts with a word and is neither import nor export. -/
def wordStatement (single : Bool) (word : String) : Parse Stmt := do
  match word with
  | "if" => ifStatement g
  | "do" => doStatement g
  | "while" =>
    next
    let test ← condition g
    return .loop [.expression test] (← g.statement true)
  | "for" => forStatement g
  | "continue" | "break" => jumpStatement
  | "with" =>
    next
    let value ← condition g
    return .withScope value (← g.statement true)
  | "switch" => switchStatement g
  | "throw" =>
    next
    let value ← withIn g.expression
    endStatement
    return .throw value
  | "try" => tryStatement g
  | "debugger" =>
    next
    endStatement
    return .idle
  | "return" => returnStatement g
  | "class" | "function" => declaration g
  | "var" => variableStatement g
  | "const" =>
    if (← read).typescript && isWordNamed "enum" (← peek).1 then declaration g
    else variableStatement g
  | "let" =>
    if (← here).token == .word "let" false then letStatement g single else expressionStatement g
  | word =>
    if ← atAsyncFunction then return ← declaration g
    if ← atUsing then return ← variableStatement g
    if ← atAwaitedUsing then
      next
      return ← variableStatement g
    if (← read).typescript && typedWords.contains word && (← atTypedDeclaration) then
      return ← declaration g
    expressionStatement g

end PackageOrder.Script.Parse
