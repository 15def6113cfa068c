/-
PackageOrder.Pattern.Reader — reading patterns.

A pattern is a list of alternatives between bars; a group may name itself and
set flags for its inside, and a flag group sets them for the rest of the group
it stands in. Look-around is refused, as are operators with nothing to repeat,
counts that fit no 32 bits or run backwards, unknown flags, names that are given
twice, and patterns that are nested too deep.

The reading functions take a count of steps; each round consumes a character,
so the length of the pattern suffices (`Pattern.parse?`).
-/
import PackageOrder.Pattern.Bracket

namespace PackageOrder.Pattern

open PackageOrder.Text

/-- What is left of a pattern, the flags in force and the group names so far. -/
structure Reading where
  rest : List Char
  flags : Flags
  names : List (List Char)

/-! ## Counts -/

/-- A number below `2^32` with blanks around it. -/
def readCount? (flags : Flags) (text : List Char) : Option (Nat × List Char) :=
  let (digits, rest) := flags.takeWhile isAsciiDigit (text.dropWhile isBlank)
  let n := digits.foldl (fun n c => 10 * n + (c.toNat - '0'.toNat)) 0
  if digits = [] ∨ Nat.pow 2 32 ≤ n then none else some (n, rest.dropWhile isBlank)

/-- The bounds of a counted repetition after its opening brace. The lower bound
cannot be left out. -/
def readBounds? (flags : Flags) (text : List Char) : Option ((Nat × Option Nat) × List Char) := do
  let (least, rest) ← readCount? flags (flags.skip text)
  match rest with
  | '\x7d' :: rest => some ((least, some least), rest)
  | ',' :: rest =>
    match flags.skip rest with
    | '\x7d' :: rest => some ((least, none), rest)
    | rest =>
      let (most, rest) ← readCount? flags rest
      match rest with
      | '\x7d' :: rest => if least ≤ most then some ((least, some most), rest) else none
      | _ => none
  | _ => none

/-! ## Groups -/

/-- The flags that a list of letters sets, each at most once; letters after a
hyphen switch off, and something follows the hyphen. -/
def readFlags? (flags : Flags) (on : Bool) (seen : List Char) :
    List Char → Option (Flags × List Char)
  | [] => none
  | c :: rest =>
    if c = ')' ∨ c = ':' then
      if seen.head? = some '-' then none else some (flags, c :: rest)
    else if c ∈ seen then none
    else
      match c with
      | '-' => readFlags? flags false (c :: seen) rest
      | 'i' => readFlags? { flags with ignoreCase := on } on (c :: seen) rest
      | 'm' => readFlags? { flags with multiLine := on } on (c :: seen) rest
      | 's' => readFlags? { flags with dotAll := on } on (c :: seen) rest
      | 'U' => readFlags? flags on (c :: seen) rest
      | 'u' => readFlags? { flags with unicode := on } on (c :: seen) rest
      | 'x' => readFlags? { flags with spaced := on } on (c :: seen) rest
      | 'R' => readFlags? { flags with carriageReturns := on } on (c :: seen) rest
      | _ => none

/-- Whether a group name may start with a character. -/
def startsGroupName (c : Char) : Bool :=
  c == '_' || Text.Property.alphabetic.has c

/-- Whether a group name may go on with a character. -/
def continuesGroupName (c : Char) : Bool :=
  startsGroupName c || c == '.' || c == '[' || c == ']' || inSpans Category.number c

/-- A group name up to its closing angle bracket. -/
def readGroupName? (text : List Char) : Option (List Char × List Char) :=
  let name := text.takeWhile (· != '>')
  match name, text.drop name.length with
  | c :: more, _ :: rest =>
    if startsGroupName c && more.all continuesGroupName then some (name, rest) else none
  | _, _ => none

/-- How a group opens. -/
inductive GroupHead where
  /-- Flags for the rest of the group around. -/
  | setFlags (flags : Flags)
  /-- A group that is only there for its flags. -/
  | plain (flags : Flags)
  /-- A group that is remembered, with its name. -/
  | remembered (name : Option (List Char))

/-- The head of a group after its opening parenthesis. -/
def readGroupHead? (flags : Flags) (text : List Char) : Option (GroupHead × List Char) :=
  let named (rest : List Char) : Option (GroupHead × List Char) :=
    (readGroupName? rest).map fun (name, rest) => (.remembered (some name), rest)
  match flags.skip text with
  | '?' :: 'P' :: '<' :: rest => named rest
  | '?' :: '<' :: rest => named rest
  | '?' :: ')' :: _ => none
  | '?' :: rest => do
    let (inner, rest) ← readFlags? flags true [] rest
    match rest with
    | ':' :: rest => some (.plain inner, rest)
    | _ :: rest => some (.setFlags inner, rest)
    | [] => none
  | text => some (.remembered none, text)

/-! ## Patterns -/

/-- The most levels of groups, repetitions, sequences, choices and classes that a
pattern may have inside each other. -/
def nestLimit : Nat := 250

/-- A pattern under construction and its levels. Flags are an item without a pattern,
which cannot be repeated. -/
structure Item where
  pattern : Option Pattern
  depth : Nat

/-- The levels of a list of items, which is a level of its own if they are several. -/
def depthOf (items : List Item) : Nat :=
  match items with
  | [] => 0
  | [item] => item.depth
  | items => items.foldl (max · ·.depth) 0 + 1

/-- A group under construction: its finished alternatives, and the items of the
current one, the last first. -/
structure OpenGroup where
  remembered : Bool
  alternatives : List Item
  items : List Item

namespace OpenGroup

/-- A group with nothing in it. -/
def new (remembered : Bool) : OpenGroup := ⟨remembered, [], []⟩

/-- The items one after the other. -/
def sequence (g : OpenGroup) : Item :=
  { pattern := some (g.items.foldl (fun later item => match item.pattern with
      | some p => .seq p later
      | none => later) .empty)
    depth := depthOf g.items }

/-- The group after a bar. -/
def alternative (g : OpenGroup) : OpenGroup :=
  { g with alternatives := g.sequence :: g.alternatives, items := [] }

/-- The alternatives of the group. -/
def choice (g : OpenGroup) : Item :=
  let alternatives := g.sequence :: g.alternatives
  let patterns := alternatives.filterMap Item.pattern
  { pattern := match patterns with
      | [] => none
      | last :: before => some (before.foldl (fun later p => .alt p later) last)
    depth := depthOf alternatives }

/-- The finished group as an item. -/
def close (g : OpenGroup) : Item :=
  let inner := g.choice
  { pattern := if g.remembered then inner.pattern.map .group else inner.pattern
    depth := inner.depth + 1 }

/-- The group with one more item. -/
def push (g : OpenGroup) (item : Item) : OpenGroup :=
  { g with items := item :: g.items }

/-- The group with its last item repeated. -/
def repeat? (g : OpenGroup) (least : Nat) (most : Option Nat) : Option OpenGroup :=
  match g.items with
  | ⟨some p, depth⟩ :: items =>
    some { g with items := ⟨some (.times least most p), depth + 1⟩ :: items }
  | _ => none

end OpenGroup

/-- The pattern of an escape. -/
def Escape.toPattern (flags : Flags) : Escape → Pattern
  | literal c => .char (flags.fold (.single c))
  | set s => .char s
  | look condition => .look condition

/-- The text after a question mark that only says which match is preferred. -/
def skipPreference : List Char → List Char
  | '?' :: rest => rest
  | rest => rest

/-- Every character but the line ends, or every one. Without Unicode it would be a byte. -/
def dotSet? (flags : Flags) : Option CharSet :=
  if !flags.unicode then none
  else if flags.dotAll then some .everything
  else if flags.carriageReturns then some (.complement (.ofRanges [('\n', '\n'), ('\r', '\r')]))
  else some (.complement (.single '\n'))

/-- The rest of a pattern. The groups around the current one are on the stack
with the flags that return when it closes. -/
def readPattern? : Nat → OpenGroup → List (OpenGroup × Flags) → Reading → Option Item
  | 0, _, _, _ => none
  | steps + 1, g, around, r =>
    let flags := r.flags
    let go (g : OpenGroup) (rest : List Char) : Option Item :=
      readPattern? steps g around { r with rest := rest }
    let push (p : Pattern) (rest : List Char) : Option Item := go (g.push ⟨some p, 0⟩) rest
    let repeated (least : Nat) (most : Option Nat) (rest : List Char) : Option Item := do
      go (← g.repeat? least most) (skipPreference rest)
    match flags.skip r.rest with
    | [] => if around.isEmpty then some g.choice else none
    | ')' :: rest =>
      match around with
      | [] => none
      | (outer, flags) :: around =>
        readPattern? steps (outer.push g.close) around { r with rest := rest, flags := flags }
    | '|' :: rest => go g.alternative rest
    | '*' :: rest => repeated 0 none rest
    | '+' :: rest => repeated 1 none rest
    | '?' :: rest => repeated 0 (some 1) rest
    | '\x7b' :: rest => do
      let ((least, most), rest) ← readBounds? flags rest
      repeated least most (flags.skip rest)
    | '(' :: rest => do
      let (head, rest) ← readGroupHead? flags rest
      match head with
      | .setFlags flags =>
        readPattern? steps (g.push ⟨none, 0⟩) around { r with rest := rest, flags := flags }
      | .plain inner =>
        readPattern? steps (.new false) ((g, flags) :: around)
          { r with rest := rest, flags := inner }
      | .remembered name =>
        if name.any (· ∈ r.names) then none
        else
          readPattern? steps (.new true) ((g, flags) :: around)
            { r with rest := rest, names := name.toList ++ r.names }
    | '[' :: rest => do
      let (c, rest) := openClass flags rest
      let (nested, rest) ← readClass? flags steps c [] rest
      go (g.push ⟨some (.char nested.set), nested.depth⟩) rest
    | '\\' :: rest => do
      let (escape, rest) ← readEscape? flags rest
      push (escape.toPattern flags) rest
    | '.' :: rest => do push (.char (← dotSet? flags)) rest
    | '^' :: rest =>
      push (.look (if flags.multiLine then .lineStart flags.carriageReturns else .textStart)) rest
    | '$' :: rest =>
      push (.look (if flags.multiLine then .lineEnd flags.carriageReturns else .textEnd)) rest
    | c :: rest => push (.char (flags.fold (.single c))) rest

end Pattern

/-- The pattern that a text writes. -/
def Pattern.parse? (text : String) : Option Pattern :=
  let chars := text.toList
  match Pattern.readPattern? (chars.length + 1) (.new false) [] ⟨chars, {}, []⟩ with
  | some ⟨some pattern, depth⟩ => if depth ≤ Pattern.nestLimit then some pattern else none
  | _ => none

end PackageOrder
