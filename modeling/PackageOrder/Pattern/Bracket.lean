/-
PackageOrder.Pattern.Bracket — classes in brackets.

A class is a union of characters, ranges, escapes, named classes and classes in
brackets of their own. `&&`, `--` and `~~` combine what stands before them with
what follows. Ranges that run backwards are refused.

How deep a class is nested counts for the limit of the whole pattern: brackets,
operators and unions of several items are a level each.
-/
import PackageOrder.Pattern.Escape

namespace PackageOrder.Pattern

open PackageOrder.Text

/-- How two sets in one pair of brackets combine. -/
inductive SetOperator where
  | intersection
  | difference
  | symmetric

/-- The combination of two sets. -/
def SetOperator.apply (a b : CharSet) : SetOperator → CharSet
  | intersection => .intersection a b
  | difference => .difference a b
  | symmetric => .union (.difference a b) (.difference b a)

/-- A set and the levels of brackets, operators and unions in it. -/
structure Nested where
  set : CharSet
  depth : Nat

/-- A class under construction: what stands before the last operator, and the
union of what came since. -/
structure OpenClass where
  negated : Bool
  before : Option (Nested × SetOperator)
  items : List Nested

namespace OpenClass

/-- The union of the items. -/
def union (c : OpenClass) : Nested :=
  match c.items with
  | [item] => item
  | items =>
    { set := .unions (items.map Nested.set)
      depth := if items.isEmpty then 0 else items.foldl (max · ·.depth) 0 + 1 }

/-- The set so far. -/
def set (flags : Flags) (c : OpenClass) : Nested :=
  match c.before with
  | none => c.union
  | some (left, operator) =>
    { set := operator.apply (flags.fold left.set) (flags.fold c.union.set)
      depth := max left.depth c.union.depth + 1 }

/-- The class with one more item. -/
def add (c : OpenClass) (item : CharSet) (depth : Nat) : OpenClass :=
  { c with items := ⟨item, depth⟩ :: c.items }

/-- The class after an operator. -/
def operator (flags : Flags) (c : OpenClass) (o : SetOperator) : OpenClass :=
  { c with before := some (c.set flags, o), items := [] }

/-- The set of the finished class. Without Unicode a complement would have parts of
characters. -/
def close? (flags : Flags) (c : OpenClass) : Option Nested :=
  if c.negated ∧ ¬flags.unicode then none
  else
    let inner := c.set flags
    some ⟨flags.foldAndNegate c.negated inner.set, inner.depth + 1⟩

end OpenClass

/-- One character or escape in a class. Without Unicode it is one of ASCII. -/
def readClassItem? (flags : Flags) (text : List Char) : Option (Escape × List Char) := do
  let (item, rest) ←
    match text with
    | '\\' :: rest => readEscape? flags rest
    | c :: rest => some (.literal c, rest)
    | [] => none
  match item with
  | .literal c => if ¬flags.unicode ∧ 127 < c.toNat then none else some (item, rest)
  | .set _ => some (item, rest)
  | .look _ => none

/-- A named ASCII class after its opening bracket: its set, whether its complement is
meant, and what follows. -/
def readNamedClass? (text : List Char) : Option (CharSet × Bool × List Char) :=
  match text with
  | ':' :: rest =>
    let (negated, rest) :=
      match rest with
      | '^' :: rest => (true, rest)
      | rest => (false, rest)
    let name := rest.takeWhile (· != ':')
    match rest.drop name.length with
    | ':' :: ']' :: after => (namedClass? (.ofList name)).map (·, negated, after)
    | _ => none
  | _ => none

/-- A class after its opening bracket, up to its first item. Hyphens there stand for
themselves, and so does a bracket that is the first. -/
def openClass (flags : Flags) (text : List Char) : OpenClass × List Char :=
  let (negated, text) :=
    match flags.skip text with
    | '^' :: rest => (true, flags.skip rest)
    | text => (false, text)
  let (hyphens, text) := flags.takeWhile (· == '-') text
  let c : OpenClass := ⟨negated, none, hyphens.map fun c => ⟨.single c, 0⟩⟩
  match hyphens, text with
  | [], ']' :: rest => (c.add (.single ']') 0, rest)
  | _, text => (c, text)

/-- A range or a single item of a class. -/
def readRange? (flags : Flags) (text : List Char) : Option (CharSet × List Char) := do
  let (first, rest) ← readClassItem? flags text
  let rest := flags.skip rest
  let alone : Option (CharSet × List Char) :=
    match first with
    | .literal c => some (.single c, rest)
    | .set s => some (s, rest)
    | .look _ => none
  match rest with
  | '-' :: after =>
    if flags.peek? after = some ']' ∨ flags.peek? after = some '-' then alone
    else
      let (last, after) ← readClassItem? flags (flags.skip after)
      match first, last with
      | .literal a, .literal b => if a ≤ b then some (.range a b, after) else none
      | _, _ => none
  | [] => none
  | _ => alone

/-- The rest of a class. The classes around it are on the stack. -/
def readClass? (flags : Flags) : Nat → OpenClass → List OpenClass → List Char →
    Option (Nested × List Char)
  | 0, _, _, _ => none
  | steps + 1, c, around, text =>
    match flags.skip text with
    | [] => none
    | ']' :: rest => do
      let closed ← c.close? flags
      match around with
      | [] => some (closed, rest)
      | outer :: around => readClass? flags steps (outer.add closed.set closed.depth) around rest
    | '[' :: rest =>
      match readNamedClass? rest with
      | some (set, negated, rest) =>
        if negated ∧ ¬flags.unicode then none
        else readClass? flags steps (c.add (flags.foldAndNegate negated set) 0) around rest
      | none =>
        let (inner, rest) := openClass flags rest
        readClass? flags steps inner (c :: around) rest
    | '&' :: '&' :: rest => readClass? flags steps (c.operator flags .intersection) around rest
    | '-' :: '-' :: rest => readClass? flags steps (c.operator flags .difference) around rest
    | '~' :: '~' :: rest => readClass? flags steps (c.operator flags .symmetric) around rest
    | text => do
      let (set, rest) ← readRange? flags text
      readClass? flags steps (c.add set 0) around rest

end PackageOrder.Pattern
