/-
PackageOrder.Log — messages and how urgent they are.

A log holds messages in the order in which they were written; a console shows
those from its own level up, the urgent ones with a label.
-/
namespace PackageOrder

/-- How urgent a message is. -/
inductive LogLevel where
  | debug
  | info
  | warn
  | error
deriving Repr, DecidableEq

namespace LogLevel

/-- The levels by increasing urgency. -/
def all : List LogLevel := [debug, info, warn, error]

/-- The name of a level. -/
def name : LogLevel → String
  | debug => "debug"
  | info => "info"
  | warn => "warn"
  | error => "error"

/-- The place of a level in the order of urgency. -/
def rank : LogLevel → Nat
  | debug => 0
  | info => 1
  | warn => 2
  | error => 3

/-- The level of a name in upper or lower case, or why there is none. -/
def ofName (text : String) : Except String LogLevel :=
  let name := text.map Char.toLower
  match all.find? (·.name == name) with
  | some level => .ok level
  | none =>
    .error ("Unknown log level \"" ++ name ++ "\" (expected debug, info, warn or error)")

/-- Whether a console of a level shows messages of another. -/
def shows (console message : LogLevel) : Bool :=
  console.rank ≤ message.rank

/-- A text in a colour of the terminal. -/
def inColour (code text : String) : String :=
  "\x1b[" ++ code ++ "m" ++ text ++ "\x1b[0m"

/-- What a console puts before a message, perhaps in colour. -/
def label? (colours : Bool) : LogLevel → Option String
  | debug => some "Debug:"
  | info => none
  | warn => some (if colours then inColour "33" "Warning:" else "Warning:")
  | error => some (if colours then inColour "31" "Error:" else "Error:")

end LogLevel

/-- Messages with their levels, in the order in which they were written. -/
abbrev Log := List (LogLevel × String)

namespace Log

/-- The messages of a level, in order. -/
def ofLevel (log : Log) (level : LogLevel) : List String :=
  (log.filter (·.1 == level)).map (·.2)

end Log

end PackageOrder
