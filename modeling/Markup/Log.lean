/-! # Log entries

What a run has to tell besides its result. Every entry has a level, the part of the program it
comes from, and a message. -/

namespace Markup

/-- How much an entry matters. -/
inductive LogLevel where
  | debug
  | info
  | warning
deriving DecidableEq, Repr, Inhabited

/-- The name of a level. -/
def LogLevel.name : LogLevel → String
  | debug => "DEBUG"
  | info => "INFO"
  | warning => "WARNING"

/-- The rank of a level; a run shows what ranks at least as high as it was asked to. -/
def LogLevel.rank : LogLevel → Nat
  | debug => 0
  | info => 1
  | warning => 2

/-- Something worth telling: inline content was dropped since its table has cells, a command name
was found, a configuration is read, or a file was evaluated to so many blocks. -/
inductive LogEntry where
  | discarded (count : Nat)
  | resolved (name : String) (line depth : Int)
  | readingConfig (path : String)
  | evaluated (path : String) (blocks : Nat)
deriving DecidableEq, Repr, Inhabited

namespace LogEntry

/-- The level of an entry. -/
def level : LogEntry → LogLevel
  | discarded _ => .warning
  | resolved .. => .debug
  | readingConfig _ | evaluated .. => .info

/-- The part of the program an entry comes from. -/
def origin : LogEntry → String
  | discarded _ => "textecca.builder"
  | resolved .. => "textecca.eval"
  | readingConfig _ | evaluated .. => "textecca.cli"

/-- What an entry says. -/
def message : LogEntry → String
  | discarded count =>
    "discarding " ++ toString count ++ " inline(s) pushed to a table that already has cells"
  | resolved name line depth =>
    "resolved \\" ++ name ++ " at line " ++ toString line ++ " (depth " ++ toString depth ++ ")"
  | readingConfig path => "reading config " ++ path
  | evaluated path blocks =>
    "evaluated " ++ path ++ ": " ++ toString blocks ++ " top-level blocks"

/-- An entry as a line. -/
def line (e : LogEntry) : String := e.level.name ++ " " ++ e.origin ++ ": " ++ e.message

end LogEntry

/-- The lines of the entries that rank at least as high as `least`. -/
def logLines (least : LogLevel) (log : List LogEntry) : List String :=
  (log.filter fun e => least.rank ≤ e.level.rank).map LogEntry.line

end Markup
