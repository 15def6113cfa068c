/-
PackageOrder.Script.Imports — the specifiers that a source file imports.

Which statements import something depends on the syntax of modules that the
file is written in. Import and export statements stand at the top level of a
program; calls of `require` are looked for where the usual forms of modules
have them: in expressions, blocks, branches and results, and in the bodies of
functions only where a module is wrapped in one.

A text without the words that any import needs is not read at all (`canSkip`).
-/
import PackageOrder.Script.Program
import PackageOrder.Text.Blank
import PackageOrder.Path.Basic

namespace PackageOrder.Script

open PackageOrder.Text

/-- The syntax of modules. -/
inductive ModuleSyntax where
  /-- Import and export statements for values. -/
  | esm
  /-- Calls of `require`, also in the functions that wrap a module. -/
  | umd
  /-- Calls of `require` outside functions. -/
  | commonJs
  /-- Import and export statements, for types too. -/
  | declarations
deriving Repr, DecidableEq

/-! ## What a text has to mention -/

/-- The text after the first place where a word stands between characters that
belong to no word, in every way; `inWord` says whether the character before
does belong to one. -/
def textsAfterWord (word : List Char) : Bool → List Char → List (List Char)
  | _, [] => []
  | inWord, c :: rest =>
    let others := textsAfterWord word (isWord c) rest
    if inWord then others
    else
      match dropHead? word (c :: rest) with
      | some after => if after.head?.any isWord then others else after :: others
      | none => others

/-- Whether a character opens a string. -/
def isQuote (c : Char) : Bool :=
  c == '"' || c == '\x27'

/-- Whether a text may hold an import or export statement with a source. -/
def mentionsStatement (text : List Char) : Bool :=
  (textsAfterWord "import".toList false text ++ textsAfterWord "export".toList false text).any
    (·.any isQuote)

/-- Whether the call of a string comes next. -/
def startsStringCall (text : List Char) : Bool :=
  match text.dropWhile isBlank with
  | '(' :: rest => (rest.dropWhile isBlank).head?.any isQuote
  | _ => false

/-- Whether a text may hold a call of `require` with a source. -/
def mentionsCall (text : List Char) : Bool :=
  (textsAfterWord "require".toList false text).any startsStringCall

/-- Whether a text cannot hold an import in a syntax. -/
def canSkip (modules : ModuleSyntax) (text : String) : Bool :=
  match modules with
  | .esm | .declarations => !mentionsStatement text.toList
  | .umd | .commonJs => !mentionsCall text.toList

/-! ## Statements -/

/-- The source that a statement at the top level imports from, for types too if
`types` says so. -/
def Stmt.importedSource? (types : Bool) : Stmt → Option String
  | .imports source typeOnly => if types || !typeOnly then some source else none
  | .exportNamed source typeOnly _ => if types || !typeOnly then source else none
  | .exportAll source typeOnly => if types || !typeOnly then some source else none
  | .importEquals source => if types then source else none
  | _ => none

/-! ## Calls -/

mutual

/-- The sources required in an expression, in order; `deep` says whether the
bodies of functions count. -/
def Expr.required (deep : Bool) : Expr → List String
  | .call callee arguments =>
    match callee with
    | .name "require" =>
      match arguments with
      | .string source :: _ => [source]
      | _ => []
    | callee => callee.required deep ++ argumentsRequired deep arguments
  | .assign _ _ value => value.required deep
  | .sequence items => itemsRequired deep items
  | .paren inner => inner.required deep
  | .conditional test yes no => test.required deep ++ yes.required deep ++ no.required deep
  | .logical left right => left.required deep ++ right.required deep
  | .unary operand => operand.required deep
  | .member object => object.required deep
  | .object members => membersRequired deep members
  | .function value | .arrow value => value.required deep
  | _ => []

/-- The sources required in the arguments of a call. -/
def argumentsRequired (deep : Bool) : List Expr → List String
  | [] => []
  | .spread _ :: rest => argumentsRequired deep rest
  | e :: rest => e.required deep ++ argumentsRequired deep rest

/-- The sources required in expressions. -/
def itemsRequired (deep : Bool) : List Expr → List String
  | [] => []
  | e :: rest => e.required deep ++ itemsRequired deep rest

/-- The sources required in the values of an object. -/
def membersRequired (deep : Bool) : List Member → List String
  | [] => []
  | .entry _ _ value :: rest => value.required deep ++ membersRequired deep rest
  | _ :: rest => membersRequired deep rest

/-- The sources required in the body of a function. -/
def Function.required (deep : Bool) : Function → List String
  | .mk _ body => if deep then bodyRequired deep body else []

/-- The sources required in the values of variables. -/
def bindingsRequired (deep : Bool) : List Binding → List String
  | [] => []
  | .mk _ _ (some value) :: rest => value.required deep ++ bindingsRequired deep rest
  | .mk _ _ none :: rest => bindingsRequired deep rest

/-- The sources required in a statement. -/
def Stmt.required (deep : Bool) : Stmt → List String
  | .expression value => value.required deep
  | .block body => bodyRequired deep body
  | .ifElse test yes (some no) => test.required deep ++ yes.required deep ++ no.required deep
  | .ifElse test yes none => test.required deep ++ yes.required deep
  | .leave (some value) => value.required deep
  | .bindings declared => bindingsRequired deep declared
  | .function value => value.required deep
  | _ => []

/-- The sources required in statements. -/
def bodyRequired (deep : Bool) : List Stmt → List String
  | [] => []
  | s :: rest => s.required deep ++ bodyRequired deep rest

end

/-! ## Imports -/

/-- The ending of a path's last part after its last dot, unless nothing stands
before that. -/
def extensionChars? (path : List Char) : Option (List Char) := do
  let (ending, stem) ← cutAt? '.' (← Path.fileNameChars? path).reverse
  if stem.isEmpty then none else some ending.reverse

/-- The dialect that the extension of a path stands for. -/
def dialectOf (path : String) : Dialect :=
  match (extensionChars? path.toList).map String.ofList with
  | some "ts" | some "mts" | some "cts" => { typescript := true }
  | some "tsx" => { typescript := true, markup := true }
  | some "jsx" => { markup := true }
  | _ => {}

/-- The dialect of a file in a syntax of modules. -/
def ModuleSyntax.dialect (modules : ModuleSyntax) (path : String) : Dialect :=
  match modules with
  | .esm => { dialectOf path with isModule := true }
  | .declarations => { dialectOf path with typescript := true, isModule := true }
  | .umd | .commonJs => { dialectOf path with isModule := false }

/-- The specifiers that a program imports in a syntax, in order. -/
def importsOf (modules : ModuleSyntax) (program : List Stmt) : List String :=
  match modules with
  | .esm => program.filterMap (Stmt.importedSource? false)
  | .declarations => program.filterMap (Stmt.importedSource? true)
  | .umd => bodyRequired true program
  | .commonJs => bodyRequired false program

/-- The specifiers that a file imports in a syntax, whatever words it holds. -/
def readImports (modules : ModuleSyntax) (path text : String) : List String :=
  importsOf modules (parseProgram (modules.dialect path) text)

/-- The specifiers that a file imports in a syntax, in order. -/
def extractImports (modules : ModuleSyntax) (path text : String) : List String :=
  if canSkip modules text then [] else readImports modules path text

end PackageOrder.Script
