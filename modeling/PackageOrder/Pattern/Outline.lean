/-
PackageOrder.Pattern.Outline — patterns in the simplified form from which automata
are built.

Neighbouring characters are one literal, sequences and choices are flat lists,
a set of one character is that character, a choice between characters or sets
is a set, and what all parts of a choice start with stands before it.
-/
import PackageOrder.Pattern.Basic
import PackageOrder.Text.Utf8

namespace PackageOrder.Pattern

open PackageOrder.Text

/-- A simplified pattern. -/
inductive Outline where
  | empty
  | literal (chars : List Char)
  | set (members : Intervals)
  | look (condition : Look)
  | times (least : Nat) (most : Option Nat) (a : Outline)
  | group (a : Outline)
  | sequence (parts : List Outline)
  | choice (parts : List Outline)

namespace Outline

/-! ## Comparison -/

mutual

/-- Whether two outlines are alike. Groups are not, since each is remembered on
its own. -/
def alike : Outline → Outline → Bool
  | empty, empty => true
  | literal a, literal b => a == b
  | set a, set b => a == b
  | look a, look b => a == b
  | times least most a, times least' most' b => least == least' && most == most' && alike a b
  | sequence a, sequence b => allAlike a b
  | choice a, choice b => allAlike a b
  | _, _ => false

/-- Whether two lists of outlines are alike. -/
def allAlike : List Outline → List Outline → Bool
  | [], [] => true
  | a :: as, b :: bs => alike a b && allAlike as bs
  | _, _ => false

end

/-- The longest list of outlines that both lists start with. -/
def commonFront : List Outline → List Outline → List Outline
  | a :: as, b :: bs => if alike a b then a :: commonFront as bs else []
  | _, _ => []

/-! ## What matches can be like -/

mutual

/-- Whether matches take no character at all. -/
def takesNothing : Outline → Bool
  | empty => true
  | look _ => true
  | literal _ => false
  | set _ => false
  | times _ most a => most.isSome && takesNothing a
  | group a => takesNothing a
  | sequence parts => allTakeNothing parts
  | choice parts => allTakeNothing parts

/-- Whether matches of each outline take no character. -/
def allTakeNothing : List Outline → Bool
  | [] => true
  | a :: as => takesNothing a && allTakeNothing as

end

mutual

/-- Whether matches take a character at least. -/
def takesSome : Outline → Bool
  | empty => false
  | look _ => false
  | literal _ => true
  | set _ => true
  | times least _ a => 0 < least && takesSome a
  | group a => takesSome a
  | sequence parts => anyTakesSome parts
  | choice parts => allTakeSome parts

/-- Whether matches of one outline in a list take a character. -/
def anyTakesSome : List Outline → Bool
  | [] => false
  | a :: as => takesSome a || anyTakesSome as

/-- Whether matches of each outline in a list take a character. -/
def allTakeSome : List Outline → Bool
  | [] => true
  | a :: as => takesSome a && allTakeSome as

end

mutual

/-- Whether matches start at the start of the text. -/
def opensText : Outline → Bool
  | look condition => condition == .textStart
  | times least _ a => 0 < least && opensText a
  | group a => opensText a
  | sequence parts => sequenceOpensText parts
  | choice parts => allOpenText parts
  | _ => false

/-- The same for the matches of a sequence. -/
def sequenceOpensText : List Outline → Bool
  | [] => false
  | a :: as => opensText a || (takesNothing a && sequenceOpensText as)

/-- The same for each of some outlines. -/
def allOpenText : List Outline → Bool
  | [] => true
  | a :: as => opensText a && allOpenText as

end

mutual

/-- Whether matches end at the end of the text. -/
def closesText : Outline → Bool
  | look condition => condition == .textEnd
  | times least _ a => 0 < least && closesText a
  | group a => closesText a
  | sequence parts => sequenceClosesText parts
  | choice parts => allCloseText parts
  | _ => false

/-- The same for the matches of a sequence. -/
def sequenceClosesText : List Outline → Bool
  | [] => false
  | a :: as => sequenceClosesText as || (allTakeNothing as && closesText a)

/-- The same for each of some outlines. -/
def allCloseText : List Outline → Bool
  | [] => true
  | a :: as => closesText a && allCloseText as

end

/-! ## Construction -/

/-- The outline of a set of code points. -/
def ofMembers (members : Intervals) : Outline :=
  match members with
  | [(first, last)] => if first = last then literal [Char.ofNat first] else set members
  | members => set members

/-- The parts of a sequence. -/
def parts : Outline → List Outline
  | empty => []
  | sequence parts => parts
  | a => [a]

/-- The parts with one more at the front. -/
def addFront : Outline → List Outline → List Outline
  | literal a, literal b :: rest => literal (a ++ b) :: rest
  | a, rest => a :: rest

/-- The sequence of some parts. -/
def sequenceOf (items : List Outline) : Outline :=
  match items.foldr (fun item rest => item.parts.foldr addFront rest) [] with
  | [] => empty
  | [a] => a
  | items => sequence items

/-- The repetition of an outline. What takes nothing is not repeated. -/
def timesOf (least : Nat) (most : Option Nat) (a : Outline) : Outline :=
  let once := takesNothing a
  let least := if once then min least 1 else least
  let most := if once then some ((most.map (min · 1)).getD 1) else most
  if most = some 0 then empty
  else if least = 1 ∧ most = some 1 then a
  else times least most a

/-- The one character of a literal. -/
def character? : Outline → Option (Nat × Nat)
  | literal [c] => some (c.toNat, c.toNat)
  | _ => none

/-- The members of a set. -/
def members? : Outline → Option Intervals
  | set members => some members
  | _ => none

/-- The outlines between which a choice chooses. -/
def choices : Outline → List Outline
  | choice parts => parts
  | a => [a]

/-- The choice between some outlines, as a set if they are characters or sets. -/
def plainChoice (items : List Outline) : Outline :=
  match items.flatMap choices with
  | [a] => a
  | items =>
    match items.mapM character? with
    | some chars => ofMembers (.ofList chars)
    | none =>
      match items.mapM members? with
      | some sets => ofMembers (.ofList sets.flatten)
      | none => choice items

/-- The parts of an outline that is a sequence of several. -/
def manyParts : Outline → List Outline
  | sequence parts => parts
  | _ => []

/-- The choice between some outlines, with what they all start with before it. -/
def choiceOf (items : List Outline) : Outline :=
  match plainChoice items with
  | choice (a :: as) =>
    let front := as.foldl (fun front b => commonFront front b.manyParts) a.manyParts
    if front.isEmpty then choice (a :: as)
    else
      let ends := (a :: as).map fun b => sequenceOf (b.manyParts.drop front.length)
      sequenceOf (front ++ [plainChoice ends])
  | a => a

/-- The outlines between which a pattern chooses. -/
def alternatives : Pattern → List Outline
  | .empty => [empty]
  | .char s => [ofMembers s.intervals]
  | .look condition => [look condition]
  | .seq a b => [sequenceOf [choiceOf (alternatives a), choiceOf (alternatives b)]]
  | .alt a b => alternatives a ++ alternatives b
  | .times least most a => [timesOf least most (choiceOf (alternatives a))]
  | .group a => [group (choiceOf (alternatives a))]

/-- The outline of a pattern. -/
def ofPattern (pattern : Pattern) : Outline :=
  choiceOf (alternatives pattern)

end Outline

end PackageOrder.Pattern
