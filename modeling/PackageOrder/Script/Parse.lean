/-
PackageOrder.Script.Parse — parsing steps over tokens.

A step reads from a `Cursor`, which stands at a token, in a `Scope`, which says
what the surroundings allow; it yields a value or fails, and a failure that
nothing catches (`attempt`, `lookahead`) means that the text is no program. No
step moves back: a `Parse` comes with the proof that what is left after it is
a rest of what was left before.

Where an arrow function may start only a trial tells whether one does. The
places where a trial has failed are kept over the failure (`Cursor.refuted`),
so nested places are tried once each.

`Grammar` names the kinds of text that hold one another. Every rule takes the
grammar of what it holds as an argument, and the knot is tied over a count of
levels at the end.
-/
import PackageOrder.Script.Token
import PackageOrder.Script.Tree

namespace PackageOrder.Script

/-- What the surroundings of a place in the text allow. -/
structure Scope where
  typescript : Bool
  markup : Bool
  isModule : Bool
  /-- A bound on the rounds of any repetition. -/
  steps : Nat
  /-- Whether `in` is an operator. -/
  allowIn : Bool := true
  inAwait : Bool := false
  inYield : Bool := false
  inDecorator : Bool := false
  /-- Whether a type may ask whether it extends another. -/
  allowConditional : Bool := true

/-- A place in the text, at a token. -/
structure Cursor where
  /-- Whether a line ends before the token. -/
  newline : Bool
  /-- The text from the token on. -/
  text : List Char
  /-- The token as it is read. -/
  found : Scanned
  found_eq : found = scanToken text
  /-- Whether all tokens up to this one are read without an error. -/
  valid : Bool := true
  /-- How much text is left at the places where a trial of an arrow function
  has failed. -/
  refuted : List Nat := []

namespace Cursor

/-- The token. -/
def token (cursor : Cursor) : Token :=
  cursor.found.token

/-- The text after the token. -/
def rest (cursor : Cursor) : List Char :=
  cursor.found.rest

theorem rest_suffix (cursor : Cursor) : cursor.rest <:+ cursor.text := by
  rw [rest, cursor.found_eq]
  exact scanToken_suffix cursor.text

/-- The place of the first token of a text. -/
def start (isModule fresh : Bool) (text : List Char) : Cursor :=
  let (newline, text) := skipTrivia isModule .blanks fresh text
  let found := scanToken text
  { newline, text, found, found_eq := rfl, valid := found.valid }

@[simp]
theorem text_start (isModule fresh : Bool) (text : List Char) :
    (start isModule fresh text).text = (skipTrivia isModule .blanks fresh text).2 := rfl

/-- The place of the first token of a text that is read after this place. -/
def moved (cursor : Cursor) (isModule : Bool) (text : List Char) : Cursor :=
  let after := start isModule false text
  { after with valid := cursor.valid && after.valid, refuted := cursor.refuted }

@[simp]
theorem text_moved (cursor : Cursor) (isModule : Bool) (text : List Char) :
    (cursor.moved isModule text).text = (skipTrivia isModule .blanks false text).2 := rfl

end Cursor

/-- A parsing step: what it yields, if it does not fail, and where it ends, which
is not before the place that it starts at. -/
structure Parse (α : Type) where
  run : Scope → Cursor → Option α × Cursor
  onward : ∀ scope cursor, (run scope cursor).2.text <:+ cursor.text

namespace Parse

/-! ## Sequences -/

/-- A step and another one after it. -/
def andThen {α β : Type} (p : Parse α) (f : α → Parse β) : Parse β where
  run scope cursor :=
    match p.run scope cursor with
    | (some a, mid) => (f a).run scope mid
    | (none, mid) => (none, mid)
  onward scope cursor := by
    have first := p.onward scope cursor
    split
    · rename_i a mid ran
      rw [ran] at first
      exact ((f a).onward scope mid).trans first
    · rename_i ran
      rw [ran] at first
      exact first

instance : Monad Parse where
  pure a := { run := fun _ cursor => (some a, cursor), onward := fun _ _ => List.suffix_rfl }
  bind := andThen

/-- A step that fails. -/
def failure {α : Type} : Parse α where
  run _ cursor := (none, cursor)
  onward _ _ := List.suffix_rfl

/-- The surroundings can be asked for. -/
instance : MonadReaderOf Scope Parse where
  read := { run := fun scope cursor => (some scope, cursor), onward := fun _ _ => List.suffix_rfl }

/-- The place at hand. -/
def here : Parse Cursor where
  run _ cursor := (some cursor, cursor)
  onward _ _ := List.suffix_rfl

/-- A step that is made up only where it is taken. -/
def deferred {α : Type} (p : Unit → Parse α) : Parse α where
  run scope cursor := (p ()).run scope cursor
  onward scope cursor := (p ()).onward scope cursor

/-! ## Trials -/

/-- A step whose failure is a value and moves nothing. -/
def attempt {α : Type} (p : Parse α) : Parse (Option α) where
  run scope cursor :=
    match p.run scope cursor with
    | (some a, after) => (some (some a), after)
    | (none, after) => (some none, { cursor with refuted := after.refuted })
  onward scope cursor := by
    have tried := p.onward scope cursor
    split
    · rename_i ran
      rw [ran] at tried
      exact tried
    · exact List.suffix_rfl

/-- A question about what comes next, which moves nothing, and its answer when
it fails. -/
def ahead {α : Type} (otherwise : α) (p : Parse α) : Parse α where
  run scope cursor := (some ((p.run scope cursor).1.getD otherwise), cursor)
  onward _ _ := List.suffix_rfl

/-- Whether something comes next. -/
def lookahead (p : Parse Bool) : Parse Bool :=
  ahead false p

/-- Keeps in mind that a trial of an arrow function has failed here. -/
def refute : Parse Unit where
  run _ cursor := (some (), { cursor with refuted := cursor.text.length :: cursor.refuted })
  onward _ _ := List.suffix_rfl

/-- A step in other surroundings. -/
def within {α : Type} (change : Scope → Scope) (p : Parse α) : Parse α where
  run scope := p.run (change scope)
  onward scope := p.onward (change scope)

/-- A step in which `in` is an operator. -/
def withIn {α : Type} (p : Parse α) : Parse α :=
  within (fun scope => { scope with allowIn := true }) p

/-! ## Tokens -/

/-- Moves to the next token after a rest of the text, and yields what is found
with it; fails where there is none. -/
def moveOver? {α : Type} (find : Cursor → Option (α × List Char))
    (isRest : ∀ cursor a text, find cursor = some (a, text) → text <:+ cursor.text) : Parse α where
  run scope cursor :=
    match find cursor with
    | some (a, text) => (some a, cursor.moved scope.isModule text)
    | none => (none, cursor)
  onward scope cursor := by
    split
    · rename_i a text found
      exact (skipTrivia_suffix _ _ _ _).trans (isRest cursor a text found)
    · exact List.suffix_rfl

/-- Moves to the next token after a rest of the text. -/
def moveOver (left : Cursor → List Char) (isRest : ∀ cursor, left cursor <:+ cursor.text) :
    Parse Unit where
  run scope cursor := (some (), cursor.moved scope.isModule (left cursor))
  onward _ cursor := (skipTrivia_suffix _ _ _ _).trans (isRest cursor)

/-- Moves to the next token. -/
def next : Parse Unit :=
  moveOver Cursor.rest Cursor.rest_suffix

/-- Whether the token is a given sign. -/
def atSign (sign : String) : Parse Bool := do
  return (← here).token == .sign sign

/-- Whether the token is one of some signs. -/
def atSignOf (signs : List String) : Parse Bool := do
  match (← here).token with
  | .sign sign => return signs.contains sign
  | _ => return false

/-- The word at hand. -/
def word? : Parse (Option String) := do
  match (← here).token with
  | .word name _ => return some name
  | _ => return none

/-- Whether the token is a given word. -/
def atWord (word : String) : Parse Bool := do
  return (← word?) == some word

/-- Whether the token is one of some words. -/
def atWordOf (words : List String) : Parse Bool := do
  return (← word?).any words.contains

/-- Whether the text has ended. -/
def atEnding : Parse Bool := do
  return (← here).token == .ending

/-- Whether a line ends before the token. -/
def afterNewline : Parse Bool := do
  return (← here).newline

/-- Moves over a sign if it comes next. -/
def eatSign (sign : String) : Parse Bool := do
  if ← atSign sign then
    next
    return true
  else
    return false

/-- Moves over a word if it comes next. -/
def eatWord (word : String) : Parse Bool := do
  if ← atWord word then
    next
    return true
  else
    return false

/-- Moves over a sign that has to come next. -/
def expectSign (sign : String) : Parse Unit := do
  if !(← eatSign sign) then failure

/-- Moves over a word that has to come next. -/
def expectWord (word : String) : Parse Unit := do
  if !(← eatWord word) then failure

/-- The token after this one, and whether a line ends between the two. -/
def peek : Parse (Token × Bool) := do
  let scope ← read
  let cursor := Cursor.start scope.isModule false (← here).rest
  return (cursor.token, cursor.newline)

/-- Whether a token is a given word, with escapes or without. -/
def isWordNamed (word : String) : Token → Bool
  | .word name _ => name == word
  | _ => false

/-- Whether a given word comes next but one, on the same line. -/
def wordFollows (word : String) : Parse Bool := do
  let (after, newline) ← peek
  return !newline && isWordNamed word after

/-! ## Names -/

/-- The words that are never names of variables. -/
def reservedWords : List String :=
  ["break", "case", "catch", "class", "const", "continue", "debugger", "default", "delete", "do",
    "else", "enum", "export", "extends", "false", "finally", "for", "function", "if", "import",
    "in", "instanceof", "new", "null", "return", "super", "switch", "this", "throw", "true", "try",
    "typeof", "var", "void", "while", "with"]

/-- The words that are keywords in some places and names in others. -/
def softWords : List String :=
  ["abstract", "accessor", "any", "as", "assert", "asserts", "async", "await", "bigint", "boolean",
    "constructor", "declare", "defer", "from", "get", "global", "implements", "infer", "interface",
    "intrinsic", "is", "keyof", "let", "meta", "module", "namespace", "never", "number", "object",
    "of", "out", "override", "package", "private", "protected", "public", "readonly", "require",
    "satisfies", "set", "source", "static", "string", "symbol", "target", "type", "undefined",
    "unique", "unknown", "using", "yield"]

/-- Whether a token may name a variable. -/
def isIdentifier : Token → Bool
  | .word name _ => !reservedWords.contains name
  | _ => false

/-- Whether a token is a name and no keyword anywhere. -/
def isPlainName : Token → Bool
  | .word name _ => !reservedWords.contains name && !softWords.contains name
  | _ => false

/-- Whether a token is a name or keyword. -/
def isWordToken : Token → Bool
  | .word _ _ => true
  | _ => false

/-- Whether a token is a name, a keyword, a number or a string. -/
def isLiteralName : Token → Bool
  | .word _ _ | .number | .string _ | .privateName => true
  | _ => false

/-- Whether the token may name a variable. -/
def atIdentifier : Parse Bool := do
  return isIdentifier (← here).token

/-- A name of a variable. -/
def identifier : Parse String := do
  match (← here).token with
  | .word name _ =>
    if reservedWords.contains name then failure
    else
      next
      return name
  | _ => failure

/-- Whether a token may be read as a name here, where the words that wait and
yield may be operators. -/
def isFreeName (token : Token) : Parse Bool := do
  let scope ← read
  return isIdentifier token && !(scope.inAwait && isWordNamed "await" token)
    && !(scope.inYield && isWordNamed "yield" token)

/-- Any word. -/
def anyWord : Parse String := do
  match ← word? with
  | some name =>
    next
    return name
  | none => failure

/-- A string. -/
def stringValue : Parse String := do
  match (← here).token with
  | .string value =>
    next
    return value
  | _ => failure

/-! ## Repetition -/

/-- The values of a step that is repeated until it yields none, the last one
first after those found so far. -/
def repeatFrom {α : Type} (p : Parse (Option α)) : Nat → List α → Parse (List α)
  | 0, _ => failure
  | steps + 1, found => do
    match ← p with
    | some a => repeatFrom p steps (a :: found)
    | none => return found.reverse

/-- The values of a step that is repeated until it yields none. -/
def repeated {α : Type} (p : Parse (Option α)) : Parse (List α) := do
  repeatFrom p (← read).steps []

/-- What a step turns a value into that is repeated until it yields none. -/
def extendFrom {α : Type} (p : α → Parse (Option α)) : Nat → α → Parse α
  | 0, _ => failure
  | steps + 1, a => do
    match ← p a with
    | some b => extendFrom p steps b
    | none => return a

/-- A value that a step extends until it yields none. -/
def extended {α : Type} (start : α) (p : α → Parse (Option α)) : Parse α := do
  extendFrom p (← read).steps start

/-- Items with commas between them before a closing sign, which is not moved
over; a comma may follow the last one. -/
def separated {α : Type} (close : String) (item : Parse α) : Parse (List α) :=
  repeated do
    if ← atSign close then return none
    let a ← item
    if !(← atSign close) then expectSign ","
    return some a

/-- One item or several with commas between them. -/
def listed {α : Type} (item : Parse α) : Parse (List α) := do
  let first ← item
  let others ← repeated do
    if ← eatSign "," then return some (← item) else return none
  return first :: others

/-! ## Ends of statements -/

/-- Whether a statement may end before the token. -/
def mayEnd : Parse Bool := do
  return (← afterNewline) || (← atSignOf [";", "\x7d"]) || (← atEnding)

/-- The end of a statement: a semicolon, or a place where none is needed. -/
def endStatement : Parse Unit := do
  if !(← eatSign ";") then
    if !(← mayEnd) then failure

/-! ## Angle brackets -/

/-- Moves over the opening bracket of type arguments, which may be the front of
a longer sign. -/
def eatOpenAngle : Parse Bool := do
  if ← atSign "<" then
    next
    return true
  else if ← atSignOf ["<<", "<<=", "<="] then
    moveOver (·.text.drop 1) fun _ => List.drop_suffix 1 _
    return true
  else
    return false

/-- The sign at a place and the text after it, where one that starts with a
closing bracket is read to its end. -/
def operatorAt? (cursor : Cursor) : Option (String × List Char) :=
  match cursor.token with
  | .sign ">" => some (scanAngles cursor.rest)
  | .sign sign => some (sign, cursor.rest)
  | _ => none

theorem operatorAt?_suffix (cursor : Cursor) (operator : String) (text : List Char)
    (found : operatorAt? cursor = some (operator, text)) : text <:+ cursor.text := by
  unfold operatorAt? at found
  split at found
  · simp only [Option.some.injEq] at found
    have rest := scanAngles_suffix cursor.rest
    rw [found] at rest
    exact rest.trans cursor.rest_suffix
  · simp only [Option.some.injEq, Prod.mk.injEq] at found
    exact found.2 ▸ cursor.rest_suffix
  · simp at found

/-- The operator at hand; one that starts with a closing bracket is read to its
end. -/
def operator? : Parse (Option String) := do
  return (operatorAt? (← here)).map (·.1)

/-- Moves over the operator at hand. -/
def eatOperator : Parse String :=
  moveOver? operatorAt? operatorAt?_suffix

/-- Moves over the next chunk of a template whose substitution ends here, and
says whether it is the last one. -/
def templateChunk : Parse Bool :=
  moveOver? (scanTemplate? ·.rest) fun cursor _ _ found =>
    (scanTemplate?_suffix found).trans cursor.rest_suffix

/-! ## Modifiers -/

/-- The words that may stand before a declaration or member to modify it. -/
def modifierWords : List String :=
  ["abstract", "accessor", "async", "const", "declare", "default", "export", "in", "out",
    "override", "private", "protected", "public", "readonly", "static"]

/-- Whether a token may follow a modifier. -/
def followsModifier (token : Token) : Bool :=
  isLiteralName token
    || [Token.sign "[", .sign "\x7b", .sign "*", .sign "..."].contains token

/-- Whether the token may follow `default` as a modifier. -/
def atDefaultDeclaration : Parse Bool := do
  if ← atWordOf ["class", "function", "interface"] then return true
  if ← atSign "@" then return true
  if ← atWord "abstract" then return ← wordFollows "class"
  if ← atWord "async" then return ← wordFollows "function"
  return false

/-- Whether the token may follow `export` as a modifier. -/
def atExportDeclaration : Parse Bool := do
  if (← atSignOf ["*", "\x7b"]) || (← atWord "as") then return false
  return followsModifier (← here).token

/-- Whether the word at hand modifies what follows it; `crossing` holds the
words that do so over the end of a line. -/
def atModifier (crossing : List String) : Parse Bool := do
  match ← word? with
  | none => return false
  | some word =>
    if !modifierWords.contains word && word != "get" && word != "set" then return false
    lookahead do
      next
      match word with
      | "const" => atWord "enum"
      | "export" =>
        if ← atWord "default" then
          next
          atDefaultDeclaration
        else
          let _ ← eatWord "type"
          atExportDeclaration
      | "default" => atDefaultDeclaration
      | word =>
        if (← afterNewline) && !crossing.contains word then return false
        return followsModifier (← here).token

/-- Moves over a word that modifies the member that follows it. -/
def eatModifier (word : String) : Parse Bool := do
  if (← atWord word) && (← atModifier ["static", "get", "set"]) then
    next
    return true
  else
    return false

/-- The modifiers of a declaration. -/
def declarationModifiers : Parse (List String) :=
  repeated do
    match ← word? with
    | none => return none
    | some word =>
      if !modifierWords.contains word || !(← atModifier ["accessor", "static"]) then return none
      next
      return some word

/-- The modifiers of a member. The word `const` may be one where `mayBeConst`
says so, and `static` is none after another one nor before an opening brace
where a class may hold a block. -/
def modifiers (mayBeConst mayHoldBlock : Bool) : Parse (List String) := do
  let found ← extended (α := List String) [] fun found => do
    match ← word? with
    | none => return none
    | some word =>
      if !modifierWords.contains word then return none
      if word == "const" then
        let (after, newline) ← peek
        if !mayBeConst || newline || !followsModifier after then return none
      else
        if word == "static" then
          if found.contains "static" then return none
          if mayHoldBlock && (← peek).1 == .sign "\x7b" then return none
        if !(← atModifier ["static"]) then return none
      next
      return some (word :: found)
  return found

end Parse

/-! ## The grammar -/

/-- The kinds of text that hold one another. -/
structure Grammar where
  /-- A type. -/
  type : Parse Unit
  /-- Expressions with commas between them. -/
  expression : Parse Expr
  /-- An expression without commas outside brackets, and whether an arrow
  function in it may state its result. -/
  assignment : Bool → Parse Expr
  /-- An expression whose operators bind more tightly than a given one. -/
  binary : Nat → Parse Expr
  /-- An expression with no operator between two others. -/
  unary : Parse Expr
  /-- What stands left of operators: a primary expression with its members. -/
  callee : Parse Expr
  /-- A primary expression with its members and calls. -/
  leftHand : Parse Expr
  /-- An object. -/
  object : Parse Expr
  /-- A name or pattern that gets a value. -/
  pattern : Parse Binding
  /-- A statement, and whether it is the body of another one. -/
  statement : Bool → Parse Stmt
  /-- Markup, and whether a token follows it or the text of other markup. -/
  markup : Bool → Parse Expr

/-- The grammar of nothing. -/
def Grammar.none : Grammar where
  type := .failure
  expression := .failure
  assignment _ := .failure
  binary _ := .failure
  unary := .failure
  callee := .failure
  leftHand := .failure
  object := .failure
  pattern := .failure
  statement _ := .failure
  markup _ := .failure

end PackageOrder.Script
