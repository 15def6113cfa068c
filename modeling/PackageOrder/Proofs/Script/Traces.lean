/-
PackageOrder.Proofs.Script.Traces — where in a text an import leaves a trace.

A call that counts comes from a place where the word `require` is written with
an opening bracket and a string after it (`CallPlace`), and a statement that
imports comes from a place where `import` or `export` is written with a string
somewhere after it (`StatementPlace`). `Stmt.Sound` says so of a statement, and
`Grammar.Sound` of what the rules of a grammar read.
-/
import PackageOrder.Proofs.Script.Steps
import PackageOrder.Proofs.Script.Calls

namespace PackageOrder.Script

/-! ## Places -/

variable (isModule : Bool) (whole : List Char)

/-- A place where one of some words is written, and what is left there. -/
structure WordPlace (words : List String) where
  text : List Char
  name : String
  escaped : Bool
  inside : text <:+ whole
  token : (scanToken text).token = .word name escaped
  isOne : name ∈ words

/-- The text after the word. -/
def WordPlace.rest {whole : List Char} {words : List String} (word : WordPlace whole words) :
    List Char :=
  (scanToken word.text).rest

/-- A place where the brackets of a call of `require` may open: the word comes
right before, or type arguments come after it. -/
def OpensCall (bracket : List Char) : Prop :=
  ∃ word : WordPlace whole ["require"], bracket <:+ word.rest ∧
    (bracket = afterToken isModule word.text ∨
      (scanToken (afterToken isModule word.text)).token ∈ [Token.sign "<", .sign "<<"])

/-- A place where a call of `require` with a source is written. -/
structure CallPlace (source : String) where
  word : WordPlace whole ["require"]
  bracket : List Char
  behind : bracket <:+ word.rest
  next : bracket = afterToken isModule word.text ∨
    (scanToken (afterToken isModule word.text)).token ∈ [Token.sign "<", .sign "<<"]
  opens : (scanToken bracket).token = .sign "("
  quoted : (scanToken (afterToken isModule bracket)).token = .string source

/-- A source that is written as a string in some text. -/
def Quoted (text : List Char) (source : String) : Prop :=
  ∃ quoted, quoted <:+ text ∧ (scanToken quoted).token = .string source

/-- A place where an import or export statement with a source is written. -/
structure StatementPlace (source : String) where
  word : WordPlace whole ["import", "export"]
  quoted : Quoted word.rest source

/-! ## Trees -/

/-- Sources each of which a call is written for. -/
def Traced (sources : List String) : Prop :=
  ∀ source ∈ sources, Nonempty (CallPlace isModule whole source)

variable {isModule whole}

@[simp]
theorem traced_nil : Traced isModule whole [] :=
  nofun

@[simp]
theorem traced_append (before after : List String) :
    Traced isModule whole (before ++ after) ↔
      Traced isModule whole before ∧ Traced isModule whole after :=
  List.forall_mem_append

theorem traced_items (items : List Expr) : Traced isModule whole (itemsRequired true items) ↔
    ∀ e ∈ items, Traced isModule whole (e.required true) := by
  induction items with
  | nil => simp [itemsRequired]
  | cons e items ih => simp [itemsRequired, ih]

theorem traced_members (members : List Member) :
    Traced isModule whole (membersRequired true members) ↔
      ∀ m ∈ members, Traced isModule whole (membersRequired true [m]) := by
  induction members with
  | nil => simp [membersRequired]
  | cons m members ih => cases m <;> simp [membersRequired, ih]

theorem traced_bindings (declared : List Binding) :
    Traced isModule whole (bindingsRequired true declared) ↔
      ∀ b ∈ declared, Traced isModule whole (bindingsRequired true [b]) := by
  induction declared with
  | nil => simp [bindingsRequired]
  | cons b declared ih =>
    obtain ⟨name, parts, value⟩ := b
    cases value <;> simp [bindingsRequired, ih]

theorem traced_body (body : List Stmt) : Traced isModule whole (bodyRequired true body) ↔
    ∀ s ∈ body, Traced isModule whole (s.required true) := by
  induction body with
  | nil => simp [bodyRequired]
  | cons s body ih => simp [bodyRequired, ih]

variable (isModule whole)

/-- An expression that is read where some text is left: its calls are written,
and it is a string only if one is written there. -/
structure Expr.ReadAt (text : List Char) (e : Expr) : Prop where
  calls : Traced isModule whole (e.required true)
  string : ∀ value, e = .string value → (scanToken text).token = .string value

/-- A statement whose calls and whose source are written. -/
structure Stmt.Sound (s : Stmt) : Prop where
  calls : Traced isModule whole (s.required true)
  source : ∀ source, s.importedSource? true = some source → Nonempty (StatementPlace whole source)

open Parse in
/-- A grammar whose rules read what is written. -/
structure Grammar.Sound (g : Grammar) : Prop where
  expression : ∀ {pre}, Ensures isModule whole pre g.expression fun e _ =>
    Traced isModule whole (e.required true)
  assignment : ∀ types text, Ensures isModule whole (At text) (g.assignment types) fun e _ =>
    e.ReadAt isModule whole text
  binary : ∀ {pre} least, Ensures isModule whole pre (g.binary least) fun e _ =>
    Traced isModule whole (e.required true)
  unary : ∀ {pre}, Ensures isModule whole pre g.unary fun e _ =>
    Traced isModule whole (e.required true)
  statement : ∀ {pre} single, Ensures isModule whole pre (g.statement single) fun s _ =>
    s.Sound isModule whole
  markup : ∀ {pre} before, Ensures isModule whole pre (g.markup before) fun e _ =>
    ∃ parts, e = .markup parts

variable {isModule whole}

theorem Grammar.Sound.assigned {g : Grammar} (sound : g.Sound isModule whole)
    {pre : Cursor → Prop} (types : Bool) :
    Parse.Ensures isModule whole pre (g.assignment types) fun e _ =>
      Traced isModule whole (e.required true) :=
  .of_places fun text _ => (sound.assignment types text).mono fun _ _ read => read.calls

end PackageOrder.Script
