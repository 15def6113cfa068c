/-
PackageOrder.EntryPoint.Sniff — the format of a bundle.

Most properties promise a format. What `main` and `browser` lead to is told by
the program itself: import and export statements make it `esm5`, a wrapper that
takes a factory makes it `umd`, and any other program with statements is
`commonJs`.
-/
import PackageOrder.EntryPoint.Basic
import PackageOrder.Resolve.Module
import PackageOrder.Script.Imports

namespace PackageOrder

open PackageOrder.Text
open PackageOrder.Script (Expr Stmt Function Binding)

/-- An expression without the brackets around it and the operators before it. -/
def Script.Expr.unwrapped : Expr → Expr
  | .paren inner => inner.unwrapped
  | .unary operand => operand.unwrapped
  | e => e

/-- Whether a statement makes a program a module. -/
def Script.Stmt.isModuleStatement : Stmt → Bool
  | .imports _ _ | .exportNamed _ _ _ | .exportDefault _ | .exportAll _ _ => true
  | _ => false

/-- The place of the parameter called `factory`. -/
def factoryIndex? (parameters : List Binding) : Option Nat :=
  parameters.findIdx? fun ⟨name, _, _⟩ => name == some "factory"

/-- Whether a statement calls a function with another one for its factory. -/
def Script.Stmt.isFactoryWrapper : Stmt → Bool
  | .expression value =>
    match value.unwrapped with
    | .call callee arguments =>
      match callee.unwrapped with
      | .function (.mk parameters _) =>
        match (factoryIndex? parameters).bind (arguments[·]?) with
        | some argument =>
          match argument.unwrapped with
          | .function _ => true
          | _ => false
        | none => false
      | _ => false
    | _ => false
  | _ => false

/-- The format of a program, if it has statements. -/
def programFormat? : List Stmt → Option BundleFormat
  | [] => none
  | first :: rest =>
    some <|
      if (first :: rest).any Stmt.isModuleStatement then .esm5
      else if first.isFactoryWrapper then .umd
      else .commonJs

/-- The format of the program that a path leads to. -/
def FileTree.sniffFormat? (tree : FileTree) (path : String) : Option BundleFormat := do
  let file ← tree.fileWithEnding? scriptEndings path
  let text ← (tree.readText file).toOption
  programFormat? (Script.parseProgram { Script.dialectOf file with isModule := true } text)

/-- Whether a text holds another. -/
def holdsText (part : List Char) : List Char → Bool
  | [] => part.isEmpty
  | c :: rest => (dropHead? part (c :: rest)).isSome || holdsText part rest

/-- The format of the bundle behind a property. -/
def FileTree.format? (tree : FileTree) (entryPoint : EntryPoint) (property : FormatProperty) :
    Option BundleFormat :=
  match property with
  | .fesm2015 | .es2015 | .esm2015 => some .esm2015
  | .fesm5 | .esm5 => some .esm5
  | .module => (entryPoint.formatPath? property).map fun path =>
    if holdsText "esm2015".toList path.toList then .esm2015 else .esm5
  | .main | .browser => do
    let path ← entryPoint.formatPath? property
    tree.sniffFormat? (tree.resolve [entryPoint.path, path])

end PackageOrder
