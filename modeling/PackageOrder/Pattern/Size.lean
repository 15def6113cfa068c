/-
PackageOrder.Pattern.Size — the memory that the automata of a pattern take.

A pattern is compiled into one automaton that reads the bytes of a text forwards
and one that reads them backwards. Each state takes the same room, and more if
several ways lead out of it; a set of characters becomes a small automaton of
its own, and counted repetitions repeat that of what they repeat. A pattern one
of whose automata does not fit the limit cannot be used (`Pattern.fits`).
-/
import PackageOrder.Pattern.Outline

namespace PackageOrder.Pattern

open PackageOrder.Text

/-- The room of a state. -/
def stateBytes : Nat := 32

/-- The additional room of each way out of a state that reads nothing. -/
def branchBytes : Nat := 4

/-- The additional room of each way out of a state that reads a byte. -/
def transitionBytes : Nat := 8

/-- The most bytes that an automaton may take. -/
def sizeLimit : Nat := 10485760

/-- The room of a part of an automaton, and whether its last state can have
several ways out. -/
structure Room where
  bytes : Nat
  branching : Bool

namespace Room

/-- The room of one more way out of the last state. -/
def link (r : Room) : Nat :=
  if r.branching then branchBytes else 0

/-- One state. -/
def state : Room := ⟨stateBytes, false⟩

/-- One part after the other. -/
def followedBy (a b : Room) : Room :=
  ⟨a.bytes + a.link + b.bytes, b.branching⟩

/-- The parts one after the other. -/
def inSequence : List Room → Room
  | [] => state
  | a :: rest => rest.foldl followedBy a

/-- The same part a number of times. -/
def copies (count : Nat) (r : Room) : Room :=
  if count = 0 then state else ⟨count * r.bytes + (count - 1) * r.link, r.branching⟩

/-- A part repeated. What may match nothing needs states of its own to be left
at once. -/
def repeated (least : Nat) (most : Option Nat) (takesSome : Bool) (r : Room) : Room :=
  match least, most with
  | 0, some 1 => ⟨r.bytes + r.link + 2 * (stateBytes + branchBytes), false⟩
  | 0, none =>
    if takesSome then ⟨r.bytes + r.link + stateBytes + branchBytes, true⟩
    else ⟨r.bytes + r.link + 3 * stateBytes + 4 * branchBytes, false⟩
  | least, none =>
    let last : Room := ⟨r.bytes + r.link + stateBytes + branchBytes, true⟩
    if least = 1 then last else (copies (least - 1) r).followedBy last
  | least, some most =>
    if least = most then copies least r
    else
      let required := copies least r
      ⟨required.bytes + required.link + stateBytes
        + (most - least) * (stateBytes + r.bytes + r.link + 2 * branchBytes), false⟩

/-- A choice between parts. -/
def choice (rooms : List Room) : Room :=
  ⟨rooms.foldl (fun total r => total + r.bytes + r.link + branchBytes) (2 * stateBytes), false⟩

/-- A state that reads one byte, or several ways out of it. -/
def ofTransitions (count : Nat) : Nat :=
  stateBytes + count * transitionBytes

end Room

/-! ## Sets of characters -/

/-- The sequences by their first intervals, where neighbours start alike. -/
def byFront : List ByteSequence → List ((Nat × Nat) × List ByteSequence)
  | [] => []
  | [] :: rest => byFront rest
  | (front :: after) :: rest =>
    match byFront rest with
    | (other, afters) :: groups =>
      if front = other then (front, after :: afters) :: groups
      else (front, [after]) :: (other, afters) :: groups
    | [] => [(front, [after])]

/-- What may be left to read in each state that is not the last, for sequences of at most
`depth` bytes. -/
def remainders : Nat → List ByteSequence → List (List ByteSequence)
  | 0, _ => []
  | depth + 1, sequences =>
    sequences :: (byFront sequences).flatMap fun (_, afters) =>
      if afters = [[]] then [] else remainders depth afters

/-- The number of different fronts of some sequences of at most `depth` bytes. -/
def countFronts : Nat → List ByteSequence → Nat
  | 0, _ => 0
  | depth + 1, sequences =>
    (byFront sequences).foldl (fun total (_, afters) => total + 1 + countFronts depth afters) 0

/-- The room of a set. States with the same remainder are one; backwards, those
with the same front are. -/
def setRoom (backwards : Bool) (members : Intervals) : Room :=
  if members.all fun (_, last) => last < 0x80 then
    ⟨stateBytes + Room.ofTransitions members.length, false⟩
  else
    let sequences := members.flatMap fun (first, last) => byteSequences first last
    if backwards then
      ⟨(2 + countFronts 4 sequences) * stateBytes + sequences.length * branchBytes, false⟩
    else
      let states := (remainders 4 sequences).eraseDups
      ⟨states.foldl (fun total state => total + Room.ofTransitions (byFront state).length)
        stateBytes, false⟩

/-! ## Choices between literals -/

/-- The bytes of some characters. -/
def charBytes (chars : List Char) : List Nat :=
  chars.flatMap fun c => codeBytes c.toNat

/-- Some words, cut at those that are empty. -/
def cutAtEmpty : List (List Nat) → List (List (List Nat))
  | [] => [[]]
  | word :: rest =>
    match cutAtEmpty rest with
    | chunk :: more => if word = [] then [] :: chunk :: more else (word :: chunk) :: more
    | [] => [[word]]

/-- The words without all empty ones at their front but one. -/
def withoutRepeats : List (List Nat) → List (List Nat)
  | [] :: rest => [] :: rest.dropWhile (· = [])
  | words => words

/-- The bytes that some words start with, in order of their first use. -/
def fronts (words : List (List Nat)) : List Nat :=
  (words.filterMap List.head?).eraseDups

/-- The room of a tree that reads one of some words of at most `depth` bytes. -/
def treeBytes : Nat → List (List Nat) → Nat
  | 0, _ => 0
  | depth + 1, words =>
    let chunks := cutAtEmpty (withoutRepeats words)
    let ways := (chunks.filter (· ≠ [])).length + (chunks.length - 1)
    chunks.foldl (fun total chunk =>
      let next := fronts chunk
      let states :=
        match next with
        | [] => 0
        | [_] => stateBytes
        | _ => Room.ofTransitions next.length
      next.foldl (fun total front =>
        let afters := (chunk.filter fun word => word.head? = some front).map List.tail
        if afters.all (· = []) then total else total + treeBytes depth afters) (total + states))
      (stateBytes + ways * branchBytes)

/-- The characters of each outline, if all are literals. -/
def literals? (parts : List Outline) : Option (List (List Char)) :=
  parts.mapM fun
    | .literal chars => some chars
    | _ => none

/-- The room of a choice between literals. -/
def literalRoom (backwards : Bool) (literals : List (List Char)) : Room :=
  let words := literals.map fun chars =>
    if backwards then (charBytes chars).reverse else charBytes chars
  let depth := words.foldl (fun most word => max most word.length) 0
  ⟨stateBytes + treeBytes depth words, false⟩

/-! ## Patterns -/

namespace Outline

mutual

/-- The room of an outline. -/
def room (backwards : Bool) : Outline → Room
  | empty => .state
  | literal chars => ⟨(charBytes chars).length * stateBytes, false⟩
  | set members => setRoom backwards members
  | look _ => .state
  | times least most a => .repeated least most a.takesSome (a.room backwards)
  | group a =>
    if backwards then a.room backwards
    else ((Room.state.followedBy (a.room backwards)).followedBy .state)
  | sequence parts =>
    let rooms := allRooms backwards parts
    .inSequence (if backwards then rooms.reverse else rooms)
  | choice parts =>
    match literals? parts with
    | some literals => literalRoom backwards literals
    | none => .choice (allRooms backwards parts)

/-- The room of each outline. -/
def allRooms (backwards : Bool) : List Outline → List Room
  | [] => []
  | a :: as => a.room backwards :: allRooms backwards as

end

/-- The room of the states that look for a start in the text. -/
def searchBytes (anchored : Bool) : Nat :=
  if anchored then stateBytes
  else 2 * stateBytes + Room.ofTransitions 1 + 2 * branchBytes

/-- The room of the automaton that reads forwards. -/
def forwardBytes (a : Outline) : Nat :=
  searchBytes a.opensText + ((Outline.group a).room false).bytes + stateBytes

/-- The room of the automaton that reads backwards. -/
def backwardBytes (a : Outline) : Nat :=
  searchBytes a.closesText + ((a.room true).followedBy .state).bytes

end Outline

end Pattern

/-- Whether the automata of a pattern keep to the limit. -/
def Pattern.fits (pattern : Pattern) : Bool :=
  let outline := Pattern.Outline.ofPattern pattern
  outline.forwardBytes ≤ Pattern.sizeLimit && outline.backwardBytes ≤ Pattern.sizeLimit

end PackageOrder
