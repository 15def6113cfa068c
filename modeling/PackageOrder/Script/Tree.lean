/-
PackageOrder.Script.Tree — script programs as trees.

The tree keeps what can hold an expression and tells apart what the rules of
this library tell apart; an expression without parts and without a rule of its
own is an `atom`. Types leave no trace, nor do decorators in front of an export.
The string statements that open a body as its directives are left out of it.

`Binding` is a declared name or pattern, of a variable or a parameter alike.
-/
namespace PackageOrder.Script

mutual

/-- An expression, or what may stand in the place of one in a list. -/
inductive Expr where
  | name (id : String)
  | string (value : String)
  /-- A number, a regular expression, `this`, `super`, `null` and the like. -/
  | atom
  /-- A gap in an array. -/
  | hole
  | template (parts : List Expr)
  | tagged (tag : Expr) (parts : List Expr)
  | array (items : List Expr)
  | object (members : List Member)
  | function (value : Function)
  | arrow (value : Function)
  /-- A class: decorators and what it extends, and its members. -/
  | class (parts : List Expr) (members : List Member)
  | call (callee : Expr) (arguments : List Expr)
  /-- An expression in which a part may be missing. -/
  | chain (inner : Expr)
  | construct (callee : Expr) (arguments : List Expr)
  | member (object : Expr)
  | privateMember (object : Expr)
  | index (object key : Expr)
  | unary (operand : Expr)
  | update (operand : Expr)
  | binary (left right : Expr)
  | logical (left right : Expr)
  /-- An assignment, plain or through an operator. -/
  | assign (plain : Bool) (target value : Expr)
  | conditional (test yes no : Expr)
  | sequence (items : List Expr)
  | paren (inner : Expr)
  /-- An expression that waits: for a result or for its caller. -/
  | suspend (operand : Option Expr)
  | spread (inner : Expr)
  | dynamicImport (arguments : List Expr)
  /-- An expression with a type asserted of it. -/
  | typed (inner : Expr)
  /-- An expression with type arguments. -/
  | instantiated (inner : Expr)
  | markup (parts : List Expr)

/-- A member of an object or a class. -/
inductive Member where
  /-- A value under a key; the parts are what a computed key and decorators
  hold. -/
  | entry (parts : List Expr) (shorthand : Bool) (value : Expr)
  | spread (value : Expr)
  /-- Statements that run with the definition of a class. -/
  | block (body : List Stmt)

/-- A name or pattern that gets a value. -/
inductive Binding where
  /-- The name, if it is one, the expressions in the pattern and the value. -/
  | mk (name : Option String) (parts : List Expr) (value : Option Expr)

/-- A function: its parameters, of which the one that takes the rest has no name,
and the statements of its body. -/
inductive Function where
  | mk (parameters : List Binding) (body : List Stmt)

/-- A statement. -/
inductive Stmt where
  | expression (value : Expr)
  | empty
  | block (body : List Stmt)
  | ifElse (test : Expr) (yes : Stmt) (no : Option Stmt)
  | bindings (declared : List Binding)
  | function (value : Function)
  | class (value : Expr)
  /-- A loop: what stands in its head, and its body. -/
  | loop (head : List Stmt) (body : Stmt)
  | leave (value : Option Expr)
  | throw (value : Expr)
  /-- Statements whose failure is handled, where the handler starts with what it
  gives a name to. -/
  | guarded (body handler finish : List Stmt)
  /-- A choice of cases, each with its tests and statements. -/
  | switch (value : Expr) (tests : List Expr) (bodies : List Stmt)
  | labelled (body : Stmt)
  | withScope (value : Expr) (body : Stmt)
  | imports (source : String) (typeOnly : Bool)
  /-- A name for a module or, without a source, for another name. -/
  | importEquals (source : Option String)
  | exportNamed (source : Option String) (typeOnly : Bool) (declared : Option Stmt)
  | exportAll (source : String) (typeOnly : Bool)
  | exportDefault (value : Stmt)
  | exportAssign (value : Expr)
  /-- A declaration of types, of something that exists elsewhere, or of a
  namespace or enumeration. -/
  | declaration (body : List Stmt)
  /-- A statement that does nothing this library looks at. -/
  | idle

end

instance : Inhabited Expr := ⟨.atom⟩
instance : Inhabited Stmt := ⟨.empty⟩

end PackageOrder.Script
