/-
PackageOrder.Script.Parse.Markup — markup inside expressions.

Between tags the text is plain up to a brace or an angle bracket. An element is
read up to its last bracket, which the cursor is left at, since what follows is
plain text again where the element stands in another one.
-/
import PackageOrder.Script.Parse.Types

namespace PackageOrder.Script.Parse

open PackageOrder.Text

variable (g : Grammar)

/-- A part of a name in markup, which may hold hyphens. -/
def markupWord : Parse Unit := do
  if !isWordToken (← here).token then failure
  if (← here).rest.head? == some '-' then
    moveOver (·.rest.dropWhile fun c => continuesIdentifier c || c == '-') fun cursor =>
      (List.dropWhile_suffix _).trans cursor.rest_suffix
  else next

/-- A name in markup: one with a space of its own, or the name of a member. -/
def markupName : Parse Unit := do
  markupWord
  if ← eatSign ":" then markupWord
  else
    let _ ← repeated (α := Unit) do
      if ← eatSign "." then
        markupWord
        return some ()
      else
        return none

/-- An expression up to the closing brace after it, which the cursor is left
at. -/
def bracedRest : Parse (List Expr) := do
  let value ← withIn g.expression
  if !(← atSign "\x7d") then failure
  return [value]

/-- An expression in braces, or none, up to its closing brace, which the cursor
is left at. -/
def bracedExpression : Parse (List Expr) := do
  expectSign "\x7b"
  if ← atSign "\x7d" then return [] else bracedRest g

/-- An expression in braces whose parts are taken, up to its closing brace, which
the cursor is left at. -/
def bracedSpread : Parse (List Expr) := do
  expectSign "\x7b"
  expectSign "..."
  bracedRest g

/-- The text after the next quotation mark of a kind. -/
def afterQuote? (quote : Char) (text : List Char) : Option (List Char) :=
  match text.dropWhile (· != quote) with
  | _ :: rest => some rest
  | [] => none

theorem afterQuote?_suffix {quote : Char} {text rest : List Char}
    (found : afterQuote? quote text = some rest) : rest <:+ text := by
  have left : text.dropWhile (· != quote) <:+ text := List.dropWhile_suffix _
  unfold afterQuote? at found
  split at found
  · rename_i split
    rw [split] at left
    simp only [Option.some.injEq] at found
    exact found ▸ (List.suffix_cons _ _).trans left
  · simp at found

/-- Moves over text in quotation marks of a kind, with only trivia in front of
it. -/
def quoted (isModule : Bool) (quote : Char) : Parse Unit :=
  moveOver? (fun cursor => (afterQuote? quote
      ((skipTrivia isModule .blanks false cursor.rest).2.drop 1)).map (((), ·)))
    fun cursor _ _ found => by
      obtain ⟨rest, quote, same⟩ := Option.map_eq_some_iff.mp found
      simp only [Prod.mk.injEq, true_and] at same
      exact (same ▸ afterQuote?_suffix quote).trans ((List.drop_suffix 1 _).trans
        ((skipTrivia_suffix _ _ _ _).trans cursor.rest_suffix))

/-- The value of an attribute after its sign. -/
def attributeValue : Parse (List Expr) := do
  let isModule := (← read).isModule
  match (skipTrivia isModule .blanks false (← here).rest).2 with
  | '"' :: _ =>
    quoted isModule '"'
    return []
  | '\x27' :: _ =>
    quoted isModule '\x27'
    return []
  | _ =>
    next
    if ← atSign "\x7b" then
      let parts ← bracedExpression g
      next
      return parts
    return [← g.markup true]

/-- The attributes of an element. -/
def attributes : Parse (List Expr) := do
  let found ← repeated do
    if ← atSign "\x7b" then
      let parts ← bracedSpread g
      next
      return some parts
    if !isWordToken (← here).token then return none
    markupWord
    if ← eatSign ":" then markupWord
    if ← atSign "=" then return some (← attributeValue g) else return some []
  return found.flatten

/-- Whether a character ends the text between tags. -/
def endsMarkupText (c : Char) : Bool :=
  c == '<' || c == '\x7b' || c == '>' || c == '\x7d'

/-- Moves over text between tags. -/
def skipMarkupText : Parse Unit :=
  moveOver (·.rest.dropWhile (!endsMarkupText ·)) fun cursor =>
    (List.dropWhile_suffix _).trans cursor.rest_suffix

/-- What stands between the tags of an element or, where `isGroup` says so, of a
group without a name, from the bracket that closes the first tag to the one that
closes the last. -/
def markupContent (isGroup : Bool) : Parse (List Expr) := do
  let found ← repeated do
    match (← here).rest.dropWhile (!endsMarkupText ·) with
    | '\x7b' :: _ =>
      skipMarkupText
      if (← peek).1 == .sign "..." then return some (← bracedSpread g)
      return some (← bracedExpression g)
    | '<' :: _ =>
      skipMarkupText
      if (← peek).1 == .sign "/" then
        next
        next
        if !isGroup then markupName
        return none
      return some [← g.markup false]
    | _ => failure
  if !(← atSign ">") then failure
  return found.flatten

/-- An element or a group of them, and whether a token follows it or more
text. -/
def anyMarkup (beforeToken : Bool) : Parse Expr := do
  expectSign "<"
  let parts ←
    if ← atSign ">" then markupContent g true
    else
      markupName
      if (← read).typescript then typeArguments g
      let given ← attributes g
      if ← eatSign "/" then
        if !(← atSign ">") then failure
        pure given
      else if ← atSign ">" then
        pure (given ++ (← markupContent g false))
      else failure
  if beforeToken then next
  return .markup parts

end PackageOrder.Script.Parse
