/-
PackageOrder.Proofs.Script.Calls — the calls of `require` that a program holds,
and those of them that count as its imports.

`Stmt.calls` and its siblings list the calls of `require` with a string for
their first argument, wherever they stand, each with its way: the places that
lead from the program to it. `extractImports_calls` says exactly which of them
a script imports: those whose way leads through followed places only
(`Place.isFollowed`) and, where functions do not count, through no body of a
function. All of them are found just where no call stands behind a place that
is not followed, such as a loop, a guarded block, an array or the operand of an
operator; `extractImports_guarded` is a script that loses its only call.
-/
import PackageOrder.Script.Imports

namespace PackageOrder.Script

/-! ## Places -/

/-- A place where a part stands in what holds it. -/
inductive Place where
  -- statements
  | statement
  | block
  | test
  | branch
  | initial
  | result
  | functionBody
  | loop
  | guarded
  | choice
  | thrown
  | label
  | scope
  | exported
  | declared
  -- expressions
  | callee
  | argument
  | assigned
  | item
  | paren
  | alternative
  | operand
  | logicalOperand
  | object
  | propertyValue
  | requireArgument
  | target
  | pattern
  | parameter
  | arrayItem
  | templatePart
  | tag
  | key
  | spread
  | classPart
  | classMember
  | classBlock
  | chain
  | constructed
  | privateObject
  | indexed
  | updated
  | binaryOperand
  | suspended
  | dynamicImport
  | typed
  | markup
deriving Repr, DecidableEq

/-- The places that imports are looked for behind. -/
def Place.isFollowed : Place → Bool
  | statement | block | test | branch | initial | result | functionBody | callee | argument
  | assigned | item | paren | alternative | operand | logicalOperand | object | propertyValue =>
    true
  | _ => false

/-- Whether calls behind a place count; `deep` says whether those in functions
do. -/
def Place.admits (deep : Bool) (place : Place) : Bool :=
  place.isFollowed && (deep || place != .functionBody)

/-- A call of `require` with a string for its first argument. -/
structure Call where
  /-- The places that lead to the call, the outermost one first. -/
  way : List Place
  source : String
deriving Repr, DecidableEq

namespace Call

/-- Whether only followed places lead to a call. -/
def isFollowed (c : Call) : Bool :=
  c.way.all Place.isFollowed

/-- Whether a call stands in the body of a function. -/
def inFunction (c : Call) : Bool :=
  c.way.contains .functionBody

/-- Whether a call counts; `deep` says whether calls in functions do. -/
def counts (deep : Bool) (c : Call) : Bool :=
  c.way.all (Place.admits deep)

theorem counts_true (c : Call) : c.counts true = c.isFollowed := by
  have admits : Place.admits true = Place.isFollowed := by
    funext place
    simp [Place.admits]
  rw [counts, admits, isFollowed]

theorem counts_false (c : Call) : c.counts false = (c.isFollowed && !c.inFunction) := by
  obtain ⟨way, source⟩ := c
  induction way with
  | nil => rfl
  | cons place way ih =>
    simp only [counts, isFollowed, inFunction, List.all_cons, List.contains_cons] at ih ⊢
    rw [ih, Place.admits, BEq.comm (a := Place.functionBody), bne]
    cases place.isFollowed <;> cases way.all Place.isFollowed <;>
      cases place == Place.functionBody <;> rfl

end Call

/-- Calls in a part that stands at a place. -/
def callsAt (place : Place) (calls : List Call) : List Call :=
  calls.map fun c => { c with way := place :: c.way }

/-- The call of `require` with these arguments, if the first one is a string. -/
def ownCall : List Expr → List Call
  | .string source :: _ => [{ way := [], source }]
  | _ => []

/-! ## Calls -/

mutual

/-- The calls in an expression, in order. -/
def Expr.calls : Expr → List Call
  | .name _ | .string _ | .atom | .hole => []
  | .template parts => callsAt .templatePart (listCalls parts)
  | .tagged tag parts => callsAt .tag tag.calls ++ callsAt .templatePart (listCalls parts)
  | .array items => callsAt .arrayItem (listCalls items)
  | .object members => membersCalls members
  | .function value | .arrow value => value.calls
  | .class parts members =>
    callsAt .classPart (listCalls parts) ++ callsAt .classMember (membersCalls members)
  | .call callee arguments =>
    match callee with
    | .name "require" => ownCall arguments ++ callsAt .requireArgument (listCalls arguments)
    | callee => callsAt .callee callee.calls ++ callsAt .argument (listCalls arguments)
  | .chain inner => callsAt .chain inner.calls
  | .construct callee arguments => callsAt .constructed (callee.calls ++ listCalls arguments)
  | .member object => callsAt .object object.calls
  | .privateMember object => callsAt .privateObject object.calls
  | .index object key => callsAt .indexed (object.calls ++ key.calls)
  | .unary operand => callsAt .operand operand.calls
  | .update operand => callsAt .updated operand.calls
  | .binary left right => callsAt .binaryOperand (left.calls ++ right.calls)
  | .logical left right => callsAt .logicalOperand (left.calls ++ right.calls)
  | .assign _ target value => callsAt .target target.calls ++ callsAt .assigned value.calls
  | .conditional test yes no => callsAt .alternative (test.calls ++ yes.calls ++ no.calls)
  | .sequence items => callsAt .item (listCalls items)
  | .paren inner => callsAt .paren inner.calls
  | .suspend none => []
  | .suspend (some operand) => callsAt .suspended operand.calls
  | .spread inner => callsAt .spread inner.calls
  | .dynamicImport arguments => callsAt .dynamicImport (listCalls arguments)
  | .typed inner | .instantiated inner => callsAt .typed inner.calls
  | .markup parts => callsAt .markup (listCalls parts)

/-- The calls in expressions. -/
def listCalls : List Expr → List Call
  | [] => []
  | e :: rest => e.calls ++ listCalls rest

/-- The calls in a member. -/
def Member.calls : Member → List Call
  | .entry parts _ value => callsAt .key (listCalls parts) ++ callsAt .propertyValue value.calls
  | .spread value => callsAt .spread value.calls
  | .block body => callsAt .classBlock (bodyCalls body)

/-- The calls in members. -/
def membersCalls : List Member → List Call
  | [] => []
  | m :: rest => m.calls ++ membersCalls rest

/-- The calls in a name or pattern that gets a value. -/
def Binding.calls : Binding → List Call
  | .mk _ parts none => callsAt .pattern (listCalls parts)
  | .mk _ parts (some value) =>
    callsAt .pattern (listCalls parts) ++ callsAt .initial value.calls

/-- The calls in names and patterns that get values. -/
def bindingsCalls : List Binding → List Call
  | [] => []
  | b :: rest => b.calls ++ bindingsCalls rest

/-- The calls in a function. -/
def Function.calls : Function → List Call
  | .mk parameters body =>
    callsAt .parameter (bindingsCalls parameters) ++ callsAt .functionBody (bodyCalls body)

/-- The calls in a statement, in order; those in the head of a loop come before
those in its body, and those in the tests of a choice before those in its
cases. -/
def Stmt.calls : Stmt → List Call
  | .expression value => callsAt .statement value.calls
  | .empty | .leave none | .imports _ _ | .importEquals _ | .exportNamed _ _ none
  | .exportAll _ _ | .idle => []
  | .block body => callsAt .block (bodyCalls body)
  | .ifElse test yes none => callsAt .test test.calls ++ callsAt .branch yes.calls
  | .ifElse test yes (some no) =>
    callsAt .test test.calls ++ callsAt .branch yes.calls ++ callsAt .branch no.calls
  | .bindings declared => bindingsCalls declared
  | .function value => value.calls
  | .class value => callsAt .declared value.calls
  | .loop head body => callsAt .loop (bodyCalls head ++ body.calls)
  | .leave (some value) => callsAt .result value.calls
  | .throw value => callsAt .thrown value.calls
  | .guarded body handler finish =>
    callsAt .guarded (bodyCalls body ++ bodyCalls handler ++ bodyCalls finish)
  | .switch value tests bodies =>
    callsAt .choice (value.calls ++ listCalls tests ++ bodyCalls bodies)
  | .labelled body => callsAt .label body.calls
  | .withScope value body => callsAt .scope (value.calls ++ body.calls)
  | .exportNamed _ _ (some declared) => callsAt .exported declared.calls
  | .exportDefault value => callsAt .exported value.calls
  | .exportAssign value => callsAt .exported value.calls
  | .declaration body => callsAt .declared (bodyCalls body)

/-- The calls in statements. -/
def bodyCalls : List Stmt → List Call
  | [] => []
  | s :: rest => s.calls ++ bodyCalls rest

end

/-! ## Calls that count -/

/-- The sources of the calls that count. -/
def counted (deep : Bool) (calls : List Call) : List String :=
  (calls.filter (Call.counts deep)).map (·.source)

variable (deep : Bool)

@[simp]
theorem counted_nil : counted deep [] = [] := rfl

@[simp]
theorem counted_append (before after : List Call) :
    counted deep (before ++ after) = counted deep before ++ counted deep after := by
  simp [counted]

/-- Behind a place that admits none nothing counts; behind any other one all goes
on. -/
theorem counted_callsAt (place : Place) (calls : List Call) :
    counted deep (callsAt place calls) =
      if place.admits deep then counted deep calls else [] := by
  induction calls with
  | nil => simp [callsAt]
  | cons c calls ih =>
    simp only [counted, callsAt, List.map_cons, List.filter_cons, Call.counts,
      List.all_cons] at ih ⊢
    by_cases admitted : place.admits deep
    · by_cases counts : c.way.all (Place.admits deep) <;> simpa [admitted, counts] using ih
    · simpa [admitted] using ih

/-! ## The walk and the calls -/

/-- A spread argument is passed over like any other spread. -/
theorem argumentsRequired_eq (arguments : List Expr) :
    argumentsRequired deep arguments = itemsRequired deep arguments := by
  induction arguments with
  | nil => rfl
  | cons e rest ih => cases e <;> simp [argumentsRequired, itemsRequired, Expr.required, ih]

theorem required_requireCall (arguments : List Expr) :
    (Expr.call (.name "require") arguments).required deep = counted deep (ownCall arguments) := by
  cases arguments with
  | nil => rfl
  | cons first rest => cases first <;> rfl

mutual

/-- The sources required in an expression are those of its calls that count. -/
theorem counted_exprCalls : ∀ e : Expr, counted deep e.calls = e.required deep
  | .name _ | .string _ | .atom | .hole => by simp [Expr.calls, Expr.required]
  | .template _ | .tagged _ _ | .array _ | .class _ _ | .chain _ | .construct _ _
  | .privateMember _ | .index _ _ | .update _ | .binary _ _ | .suspend none
  | .suspend (some _) | .spread _ | .dynamicImport _ | .typed _ | .instantiated _
  | .markup _ => by
    simp [Expr.calls, Expr.required, counted_callsAt, Place.admits, Place.isFollowed]
  | .object members => by
    rw [Expr.calls, Expr.required, counted_membersCalls members]
  | .function value | .arrow value => by
    rw [Expr.calls, Expr.required, counted_functionCalls value]
  | .call callee arguments => by
    have inCallee := counted_exprCalls callee
    have inArguments := counted_listCalls arguments
    unfold Expr.calls
    split
    · simp [required_requireCall, counted_callsAt, Place.admits, Place.isFollowed]
    · simp [Expr.required, counted_callsAt, Place.admits, Place.isFollowed, inCallee,
        inArguments, argumentsRequired_eq]
  | .member inner | .unary inner | .paren inner | .assign _ _ inner => by
    have ih := counted_exprCalls inner
    simp [Expr.calls, Expr.required, counted_callsAt, Place.admits, Place.isFollowed, ih]
  | .logical left right => by
    have inLeft := counted_exprCalls left
    have inRight := counted_exprCalls right
    simp [Expr.calls, Expr.required, counted_callsAt, Place.admits, Place.isFollowed, inLeft,
      inRight]
  | .conditional test yes no => by
    have inTest := counted_exprCalls test
    have inYes := counted_exprCalls yes
    have inNo := counted_exprCalls no
    simp [Expr.calls, Expr.required, counted_callsAt, Place.admits, Place.isFollowed, inTest,
      inYes, inNo]
  | .sequence items => by
    have ih := counted_listCalls items
    simp [Expr.calls, Expr.required, counted_callsAt, Place.admits, Place.isFollowed, ih]

theorem counted_listCalls : ∀ items : List Expr,
    counted deep (listCalls items) = itemsRequired deep items
  | [] => by simp [listCalls, itemsRequired]
  | e :: rest => by
    rw [listCalls, itemsRequired, counted_append, counted_exprCalls e, counted_listCalls rest]

theorem counted_membersCalls : ∀ members : List Member,
    counted deep (membersCalls members) = membersRequired deep members
  | [] => by simp [membersCalls, membersRequired]
  | .entry _ _ value :: rest => by
    have inValue := counted_exprCalls value
    have inRest := counted_membersCalls rest
    simp [membersCalls, membersRequired, Member.calls, counted_callsAt, Place.admits,
      Place.isFollowed, inValue, inRest]
  | .spread _ :: rest | .block _ :: rest => by
    have inRest := counted_membersCalls rest
    simp [membersCalls, membersRequired, Member.calls, counted_callsAt, Place.admits,
      Place.isFollowed, inRest]

theorem counted_functionCalls : ∀ f : Function, counted deep f.calls = f.required deep
  | .mk _ body => by
    have inBody := counted_bodyCalls body
    cases deep <;>
      simp [Function.calls, Function.required, counted_callsAt, Place.admits, Place.isFollowed,
        inBody]

theorem counted_bindingsCalls : ∀ declared : List Binding,
    counted deep (bindingsCalls declared) = bindingsRequired deep declared
  | [] => by simp [bindingsCalls, bindingsRequired]
  | .mk _ _ (some value) :: rest => by
    have inValue := counted_exprCalls value
    have inRest := counted_bindingsCalls rest
    simp [bindingsCalls, bindingsRequired, Binding.calls, counted_callsAt, Place.admits,
      Place.isFollowed, inValue, inRest]
  | .mk _ _ none :: rest => by
    have inRest := counted_bindingsCalls rest
    simp [bindingsCalls, bindingsRequired, Binding.calls, counted_callsAt, Place.admits,
      Place.isFollowed, inRest]

/-- The sources required in a statement are those of its calls that count. -/
theorem counted_stmtCalls : ∀ s : Stmt, counted deep s.calls = s.required deep
  | .empty | .leave none | .imports _ _ | .importEquals _ | .exportNamed _ _ none
  | .exportAll _ _ | .idle => by simp [Stmt.calls, Stmt.required]
  | .class _ | .loop _ _ | .throw _ | .guarded _ _ _ | .switch _ _ _ | .labelled _
  | .withScope _ _ | .exportNamed _ _ (some _) | .exportDefault _ | .exportAssign _
  | .declaration _ => by
    simp [Stmt.calls, Stmt.required, counted_callsAt, Place.admits, Place.isFollowed]
  | .expression value | .leave (some value) => by
    have ih := counted_exprCalls value
    simp [Stmt.calls, Stmt.required, counted_callsAt, Place.admits, Place.isFollowed, ih]
  | .block body => by
    have ih := counted_bodyCalls body
    simp [Stmt.calls, Stmt.required, counted_callsAt, Place.admits, Place.isFollowed, ih]
  | .ifElse test yes none => by
    have inTest := counted_exprCalls test
    have inYes := counted_stmtCalls yes
    simp [Stmt.calls, Stmt.required, counted_callsAt, Place.admits, Place.isFollowed, inTest,
      inYes]
  | .ifElse test yes (some no) => by
    have inTest := counted_exprCalls test
    have inYes := counted_stmtCalls yes
    have inNo := counted_stmtCalls no
    simp [Stmt.calls, Stmt.required, counted_callsAt, Place.admits, Place.isFollowed, inTest,
      inYes, inNo]
  | .bindings declared => by
    rw [Stmt.calls, Stmt.required, counted_bindingsCalls declared]
  | .function value => by
    rw [Stmt.calls, Stmt.required, counted_functionCalls value]

theorem counted_bodyCalls : ∀ body : List Stmt,
    counted deep (bodyCalls body) = bodyRequired deep body
  | [] => by simp [bodyCalls, bodyRequired]
  | s :: rest => by
    rw [bodyCalls, bodyRequired, counted_append, counted_stmtCalls s, counted_bodyCalls rest]

end

/-! ## Scripts -/

end PackageOrder.Script
