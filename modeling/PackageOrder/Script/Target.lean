/-
PackageOrder.Script.Target — the expressions that can be assigned to.

A plain assignment may take an array or object apart; what stands in it has to
be assignable in turn, and only its last part may take the rest.
-/
import PackageOrder.Script.Tree

namespace PackageOrder.Script

/-- An expression without the brackets and types around it. -/
def Expr.bare : Expr → Expr
  | .paren inner => inner.bare
  | .typed inner => inner.bare
  | .instantiated inner => inner.bare
  | e => e

/-- Whether an expression is a name or a member of something. -/
def Expr.isReference : Expr → Bool
  | .name _ | .member _ | .privateMember _ | .index _ _ => true
  | _ => false

/-- Whether an expression stands for one place that holds a value. -/
def Expr.isPlace : Expr → Bool
  | .paren inner =>
    match inner with
    | .array _ | .object _ => false
    | inner => inner.isPlace
  | .typed inner => inner.bare.isReference
  | e => e.isReference

mutual

/-- Whether a plain assignment to an expression is possible. -/
def Expr.isTarget : Expr → Bool
  | .array items => areItemTargets items
  | .object members => areMemberTargets members
  | e => e.isPlace

/-- Whether a part of a taken-apart value can be assigned to, where it may have
a value for when it is missing. -/
def isPartTarget : Expr → Bool
  | .assign plain _ _ => plain
  | .array items => areItemTargets items
  | .object members => areMemberTargets members
  | e => e.isPlace

/-- Whether the items of an array can be assigned to. -/
def areItemTargets : List Expr → Bool
  | [] => true
  | .hole :: rest => areItemTargets rest
  | [.spread inner] => inner.isTarget
  | e :: rest => isPartTarget e && areItemTargets rest

/-- Whether the members of an object can be assigned to. -/
def areMemberTargets : List Member → Bool
  | [] => true
  | [.spread inner] => inner.isTarget
  | .entry _ shorthand value :: rest =>
    (shorthand || isPartTarget value) && areMemberTargets rest
  | _ :: _ => false

end

end PackageOrder.Script
