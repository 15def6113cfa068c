/-
PackageOrder.Script.Program — whole programs.

A text with an error anywhere is a program without statements. The kinds of
text hold one another to a depth that the length of the text bounds: between
two tokens only a few levels open.
-/
import PackageOrder.Script.Parse.Module
import PackageOrder.Script.Parse.Markup

namespace PackageOrder.Script

/-- The forms of source: whether it has types, whether markup may stand in it,
and whether it is a module. -/
structure Dialect where
  typescript : Bool := false
  markup : Bool := false
  isModule : Bool := true
deriving Repr, DecidableEq

/-- The grammar of texts that nest to a given depth. -/
def grammar : Nat → Grammar
  | 0 => Grammar.none
  | depth + 1 =>
    { type := .deferred fun _ => Parse.anyType (grammar depth)
      expression := .deferred fun _ => Parse.expression (grammar depth)
      assignment := fun types => .deferred fun _ => Parse.assignment (grammar depth) types
      binary := fun least => .deferred fun _ => Parse.binary (grammar depth) least
      unary := .deferred fun _ => Parse.unary (grammar depth)
      callee := .deferred fun _ => Parse.callee (grammar depth)
      leftHand := .deferred fun _ => Parse.leftHand (grammar depth)
      object := .deferred fun _ => Parse.object (grammar depth)
      pattern := .deferred fun _ => Parse.pattern (grammar depth)
      statement := fun single => .deferred fun _ => Parse.statement (grammar depth) single
      markup := fun before => .deferred fun _ => Parse.anyMarkup (grammar depth) before }

/-- The statements up to the end of the text, or up to what no rule reads. -/
def allStatements (g : Grammar) : Parse (List Stmt) :=
  Parse.repeated do
    if (← Parse.here).token == .ending || (← Parse.here).token == .bad then return none
    return some (← g.statement false)

/-- The statements of a program without its directives; none where the text is
no program. -/
def parseProgram? (dialect : Dialect) (text : List Char) : Option (List Stmt) :=
  let text := skipInterpreterLine text
  let steps := text.length + 1
  let scope : Scope :=
    { typescript := dialect.typescript
      markup := dialect.markup
      isModule := dialect.isModule
      inAwait := dialect.isModule
      steps }
  let start := Cursor.start dialect.isModule true text
  ((allStatements (grammar (4 * steps + 16))).run scope start).1.map withoutDirectives

/-- The statements of a program; a text that is none has no statements. -/
def parseProgram (dialect : Dialect) (text : String) : List Stmt :=
  (parseProgram? dialect text.toList).getD []

end PackageOrder.Script
