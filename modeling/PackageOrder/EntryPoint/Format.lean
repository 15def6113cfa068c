/-
PackageOrder.EntryPoint.Format — the formats of bundles, and the properties of
a package description that lead to them.
-/
namespace PackageOrder

/-- The format of a bundle. -/
inductive BundleFormat where
  | esm5
  | esm2015
  | umd
  | commonJs
deriving Repr, DecidableEq

/-- The name of a format. -/
def BundleFormat.name : BundleFormat → String
  | esm5 => "esm5"
  | esm2015 => "esm2015"
  | umd => "umd"
  | commonJs => "commonjs"

/-- A property of a package description that may lead to a bundle. -/
inductive FormatProperty where
  | fesm2015
  | fesm5
  | es2015
  | esm2015
  | esm5
  | main
  | module
  | browser
deriving Repr, DecidableEq

namespace FormatProperty

/-- Every format property, the preferred ones first. -/
def all : List FormatProperty :=
  [fesm2015, fesm5, es2015, esm2015, esm5, main, module, browser]

/-- The key of a property. -/
def name : FormatProperty → String
  | fesm2015 => "fesm2015"
  | fesm5 => "fesm5"
  | es2015 => "es2015"
  | esm2015 => "esm2015"
  | esm5 => "esm5"
  | main => "main"
  | module => "module"
  | browser => "browser"

/-- The property with a key. -/
def ofName? (text : String) : Option FormatProperty :=
  all.find? (·.name == text)

/-- The property with a key, or why there is none. -/
def ofName (text : String) : Except String FormatProperty :=
  match ofName? text with
  | some property => .ok property
  | none => .error ("Unknown format property \"" ++ text ++ "\"")

end FormatProperty

end PackageOrder
