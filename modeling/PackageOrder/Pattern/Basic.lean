/-
PackageOrder.Pattern.Basic — patterns over texts, and which texts have a match.

`Pattern.ends` maps a set of positions where a match may start to the set of
positions where it may end. Because only the existence of a match is asked
for, sets of positions say everything: a sequence composes the maps, an
alternative joins them, and a repetition iterates until nothing new appears.
-/
import PackageOrder.Text.CharSet

namespace PackageOrder.Pattern

/-- Conditions on a position that consume nothing. -/
inductive Look where
  | textStart
  | textEnd
  | lineStart (carriageReturns : Bool)
  | lineEnd (carriageReturns : Bool)
  /-- A change between word and other characters; `ascii` asks for ASCII words only. -/
  | boundary (ascii : Bool)
  | noBoundary (ascii : Bool)
  | wordStart (ascii : Bool)
  | wordEnd (ascii : Bool)
  | wordStartHalf (ascii : Bool)
  | wordEndHalf (ascii : Bool)
deriving Repr, DecidableEq

end Pattern

/-- A pattern. -/
inductive Pattern where
  | empty
  | char (set : Text.CharSet)
  | look (condition : Pattern.Look)
  | seq (a b : Pattern)
  | alt (a b : Pattern)
  /-- At least `least` and at most `most` times (any number without `most`). -/
  | times (least : Nat) (most : Option Nat) (a : Pattern)
  /-- A pattern whose match is remembered. -/
  | group (a : Pattern)
deriving Repr, Inhabited

namespace Pattern

open PackageOrder.Text

/-- A set of positions in a text, each listed once. -/
abbrev Positions := List Nat

/-- All positions of both sets. -/
def join (a b : Positions) : Positions :=
  b.foldl (fun found p => if p ∈ found then found else found ++ [p]) a

/-- Whether the character at an index is a word character. -/
def wordAt (text : Array Char) (ascii : Bool) (i : Nat) : Bool :=
  match text[i]? with
  | some c => if ascii then isAsciiWord c else isWord c
  | none => false

/-- Whether the character before a position is a word character. -/
def wordBefore (text : Array Char) (ascii : Bool) : Nat → Bool
  | 0 => false
  | i + 1 => wordAt text ascii i

/-- Whether a condition holds at a position. -/
def Look.holds (text : Array Char) (p : Nat) : Look → Bool
  | textStart => p == 0
  | textEnd => p == text.size
  | lineStart crs =>
    p == 0 || text[p - 1]? == some '\n'
      || (crs && text[p - 1]? == some '\r' && text[p]? != some '\n')
  | lineEnd crs =>
    p == text.size || (text[p]? == some '\n' && !(crs && 0 < p && text[p - 1]? == some '\r'))
      || (crs && text[p]? == some '\r')
  | boundary ascii => wordBefore text ascii p != wordAt text ascii p
  | noBoundary ascii => wordBefore text ascii p == wordAt text ascii p
  | wordStart ascii => !wordBefore text ascii p && wordAt text ascii p
  | wordEnd ascii => wordBefore text ascii p && !wordAt text ascii p
  | wordStartHalf ascii => !wordBefore text ascii p
  | wordEndHalf ascii => !wordAt text ascii p

/-- The positions reached by applying `step` again and again, the given ones
included. `fuel` bounds the rounds; each round finds a new position or ends. -/
def closure (step : Positions → Positions) : Nat → Positions → Positions
  | 0, found => found
  | fuel + 1, found =>
    let next := join found (step found)
    if next.length = found.length then found else closure step fuel next

/-- The positions after `count` applications of `step`; stops where nothing changes. -/
def applyTimes (step : Positions → Positions) : Nat → Positions → Positions
  | 0, found => found
  | count + 1, found =>
    let next := step found
    if next = [] ∨ next = found then next else applyTimes step count next

/-- The positions after at most `count` applications of `step`. -/
def applyUpTo (step : Positions → Positions) : Nat → Positions → Positions
  | 0, found => found
  | count + 1, found =>
    let next := join found (step found)
    if next.length = found.length then found else applyUpTo step count next

/-- Where matches that start at the given positions may end. -/
def ends (text : Array Char) : Pattern → Positions → Positions
  | empty, starts => starts
  | char set, starts =>
    starts.filterMap fun p => if text[p]?.any set.has then some (p + 1) else none
  | look condition, starts => starts.filter fun p => condition.holds text p
  | seq a b, starts => ends text b (ends text a starts)
  | alt a b, starts => join (ends text a starts) (ends text b starts)
  | times least most a, starts =>
    let reached := applyTimes (ends text a) least starts
    match most with
    | none => closure (ends text a) (text.size + 1) reached
    | some most => applyUpTo (ends text a) (most - least) reached
  | group a, starts => ends text a starts

/-- Whether a text has a match of the pattern anywhere. -/
def matchesIn (pattern : Pattern) (text : String) : Bool :=
  let chars := text.toList.toArray
  pattern.ends chars (List.range (chars.size + 1)) ≠ []

end Pattern

end PackageOrder
