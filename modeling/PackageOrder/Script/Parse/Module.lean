/-
PackageOrder.Script.Parse.Module — imports and exports, and statements of every
kind.
-/
import PackageOrder.Script.Parse.Statement

namespace PackageOrder.Script.Parse

variable (g : Grammar)

/-! ## Sources -/

/-- A name that a module exports, or that something is said about a source
under: a word or a string. -/
def exportedName : Parse Unit := do
  match (← here).token with
  | .string _ => next
  | _ => let _ ← anyWord

/-- What is said about a source besides its text. -/
def sourceAttributes : Parse Unit := do
  if (← atWord "with") || ((← atWord "assert") && !(← afterNewline)) then
    next
    expectSign "\x7b"
    let _ ← separated (α := Unit) "\x7d" do
      exportedName
      expectSign ":"
      let _ ← stringValue
    expectSign "\x7d"

/-- The source of a statement up to its end. -/
def sourceRest : Parse String := do
  let source ← stringValue
  sourceAttributes
  endStatement
  return source

/-! ## Specifiers -/

/-- Moves over the word in typed source that makes a specifier one of a type;
true where the word is not moved over because `as` follows it, so that only the
rest of the specifier shows what the word means. -/
def typeMark : Parse Bool := do
  if !(← read).typescript || !(← atWord "type") then return false
  match (← peek).1 with
  | .word "as" _ => return true
  | .word _ _ | .string _ =>
    next
    return false
  | _ => return false

/-- Whether a specifier ends here. -/
def atSpecifierEnd : Parse Bool :=
  atSignOf [",", "\x7d"]

/-- The new name in a specifier, which `renamed` reads. In typed source `as` may
also be the name of a type or a new name itself. -/
def specifierRest (mark : Bool) (renamed : Parse Unit) : Parse Unit := do
  if mark && (← atSpecifierEnd) then return
  if mark && (← atWord "as") then
    next
    if !(← atSpecifierEnd) then renamed
  else
    renamed

/-- A specifier of an import. -/
def importSpecifier : Parse Unit := do
  let mayMark ← typeMark
  let plain ← atIdentifier
  exportedName
  let renamed : Parse Unit := do
    let _ ← identifier
  if ← eatWord "as" then specifierRest mayMark renamed
  else if !plain then failure

/-- A specifier of an export. -/
def exportSpecifier : Parse Unit := do
  let mayMark ← typeMark
  exportedName
  if ← eatWord "as" then specifierRest mayMark exportedName

/-! ## Imports -/

/-- Moves over all the names of a module under one name. -/
def namespaceImport : Parse Unit := do
  expectSign "*"
  expectWord "as"
  let _ ← identifier

/-- Moves over the names that are imported from a module. -/
def namedImports : Parse Unit := do
  if ← atSign "*" then namespaceImport
  else
    expectSign "\x7b"
    let _ ← separated "\x7d" importSpecifier
    expectSign "\x7d"

/-- The source of an import up to its end, which may also be what no rule
reads. -/
def importSource : Parse String := do
  let source ← stringValue
  sourceAttributes
  if (← here).token != .bad then endStatement
  return source

/-- The rest of an import of names after the one for the whole module, which
`named` says there is. A source may follow that one at once. -/
def importRest (typeOnly named : Bool) : Parse Stmt := do
  if let .string _ := (← here).token then
    if named then return .imports (← importSource) typeOnly
  if named then
    if ← atSign "=" then return ← importEqualsRest
    if ← eatSign "," then namedImports
  else namedImports
  expectWord "from"
  return .imports (← importSource) typeOnly

/-- The rest of an import after the word `type`, which names the whole module,
and a comma: the word before the source stands only after names. -/
def importAfterType : Parse Stmt := do
  let isEmpty ← lookahead do
    expectSign "\x7b"
    atSign "\x7d"
  namedImports
  if !isEmpty then expectWord "from"
  return .imports (← importSource) false

/-- Whether the token is a string after this one. -/
def stringFollows : Parse Bool := do
  match (← peek).1 with
  | .string _ => return true
  | _ => return false

/-- An import. -/
def importStatement : Parse Stmt := do
  expectWord "import"
  if let .string _ := (← here).token then return .imports (← importSource) false
  if !(← atIdentifier) then return ← importRest false false
  let first ← identifier
  if first == "defer" && (← atSign "*") then return ← importRest false false
  if first == "source" && (← atIdentifier)
      && (!(← atWord "from") || (← wordFollows "from")) then
    next
    expectWord "from"
    return .imports (← importSource) false
  if (← read).typescript && first == "type" then
    if !(← atWord "from") || !(← stringFollows) then
      if ← atIdentifier then
        next
        return ← importRest true true
      if ← atSignOf ["*", "\x7b"] then return ← importRest true false
    if ← eatSign "," then return ← importAfterType
  importRest false true

/-! ## Exports -/

/-- An export of all names of a module. -/
def exportAll (typeOnly : Bool) : Parse Stmt := do
  expectSign "*"
  if ← eatWord "as" then exportedName
  expectWord "from"
  return .exportAll (← sourceRest) typeOnly

/-- An export of names, of this module or another one. -/
def exportNamed (typeOnly : Bool) : Parse Stmt := do
  expectSign "\x7b"
  let _ ← separated "\x7d" exportSpecifier
  expectSign "\x7d"
  if ← eatWord "from" then
    match (← here).token with
    | .string _ | .number | .valueless =>
      return .exportNamed (some (← sourceRest)) typeOnly none
    | token =>
      if ["null", "true", "false"].any (isWordNamed · token) then failure
  endStatement
  return .exportNamed none typeOnly none

/-- An export of one value without a name. Decorators may stand in front of any
value. -/
def exportDefault : Parse Stmt := do
  expectWord "default"
  let decorations ← decorators g
  if (← atWord "function") || (← atAsyncFunction) then
    let isAsync ← eatWord "async"
    return .exportDefault (.function (← functionFrom g isAsync false))
  if (← atWord "abstract") && isWordNamed "class" (← peek).1 then next
  if ← atWord "class" then return .exportDefault (.class (← classFrom g decorations))
  let (after, newline) ← peek
  if (← atWord "interface") && isIdentifier after && !newline then
    next
    return .exportDefault (← interfaceRest g)
  let value ← withIn (g.assignment true)
  endStatement
  return .exportDefault (.expression value)

/-- An export. -/
def exportStatement : Parse Stmt := do
  expectWord "export"
  if ← atSign "*" then return ← exportAll false
  if ← atSign "\x7b" then return ← exportNamed false
  if ← atWord "default" then return ← exportDefault g
  if (← read).typescript then
    let (after, _) ← peek
    if ← eatSign "=" then
      let value ← withIn (g.assignment true)
      endStatement
      return .exportAssign value
    if (← atWord "as") && isWordNamed "namespace" after then
      next
      next
      let _ ← identifier
      endStatement
      return .declaration []
    if (← atWord "type") && after == .sign "\x7b" then
      next
      return ← exportNamed true
    if (← atWord "type") && after == .sign "*" then
      next
      return ← exportAll true
  if ← atSign "@" then return .exportNamed none false (some (.class (← decoratedClass g)))
  return .exportNamed none false (some (← declaration g))

/-! ## Statements -/

/-- A statement, and whether it is the body of another one. -/
def statement (single : Bool) : Parse Stmt := do
  match (← here).token with
  | .sign "\x7b" => return .block (← bracedStatements g)
  | .sign ";" =>
    next
    return .empty
  | .sign "@" =>
    let decorations ← decorators g
    if ← atWord "export" then exportStatement g
    else return .class (← modifiedClass g decorations)
  | .word "import" _ =>
    if [Token.sign ".", .sign "("].contains (← peek).1 then expressionStatement g
    else importStatement
  | .word "export" _ => exportStatement g
  | .word word _ => wordStatement g single word
  | _ => expressionStatement g

end PackageOrder.Script.Parse
