import Markup.Source
import Markup.Text

/-! # Errors with a place

What can be wrong with a text before it is evaluated: its indentation (`LexFault`) or its
commands (`ParseFault`). Each has one wording, and both are reported with the line they stand on
and carets under the offending part (`excerpt`). -/

namespace Markup

/-! ### Excerpts -/

/-- A message with the place it is about, the line there, and carets under the line from a column
on; line and column are counted from one. -/
def reportAt (message filename : String) (line column : Nat) (shown : List Char) (carets : Nat) :
    String :=
  let number := toString line
  let gutter := String.ofList (List.replicate (number.length + 1) ' ')
  "error: " ++ message ++ "\n" ++
    gutter ++ "--> " ++ filename ++ ":" ++ number ++ ":" ++ toString column ++ "\n" ++
    gutter ++ "|\n" ++
    number ++ " | " ++ String.ofList shown ++ "\n" ++
    gutter ++ "| " ++ String.ofList (List.replicate (column - 1) ' ') ++
    String.ofList (List.replicate carets '^')

/-- A message with the source line of a span and carets under the part of it on that line, at
least one. -/
def excerpt (message : String) (span : Span) (source filename : String) : String :=
  let cs := source.toList
  let offset := (max 0 (min span.offset cs.length)).toNat
  let lineStart := (Text.rfind '\n' cs offset + 1).toNat
  let found := Text.find '\n' cs offset
  let lineEnd := if found = -1 then cs.length else found.toNat
  let shown := Text.trimEnd (· == '\r') ((cs.take lineEnd).drop lineStart)
  let line := (cs.take offset).count '\n' + 1
  let column := offset - lineStart + 1
  let carets := max 1 (min (Text.firstLine span.fragment.toList).length
    (shown.length + 1 - column))
  reportAt message filename line column shown carets

/-! ### Faults -/

/-- Why a text has no tokens. -/
inductive LexFault where
  | indentation
  | other (message : String)
deriving DecidableEq, Repr, Inhabited

/-- The wording of a fault. -/
def LexFault.message : LexFault → String
  | indentation => "blank line or indentation matches no outer block"
  | other message => message

/-- Why a region has no parse. -/
inductive ParseFault where
  | unclosedBrace
  | tooFewArguments (expected : Int) (name : String) (found : Nat)
  | nameExpected
  | unexpected (c : Char)
  | commandExpected
  | other (message : String)
deriving DecidableEq, Repr, Inhabited

/-- The wording of a fault. -/
def ParseFault.message : ParseFault → String
  | unclosedBrace => "unclosed '\x7b' in command argument"
  | tooFewArguments expected name found =>
    "expected at least " ++ toString expected ++ " argument(s) to \\" ++ name ++ ", found " ++
      toString found
  | nameExpected => "expected command name after '\\'"
  | unexpected c => "unexpected character " ++ Text.quoted (String.singleton c)
  | commandExpected => "expected command"
  | other message => message

/-- Indentation trouble: the reason, the offending span and the whole source. -/
structure LexError where
  fault : LexFault
  span : Span
  source : String
deriving DecidableEq, Repr, Inhabited

/-- Malformed commands: the reason, the offending span and the whole source. -/
structure ParseError where
  fault : ParseFault
  span : Span
  source : String
deriving DecidableEq, Repr, Inhabited

/-- The message without its place. -/
def LexError.message (e : LexError) : String := e.fault.message

/-- The message without its place. -/
def ParseError.message (e : ParseError) : String := e.fault.message

/-- The error as it is reported for a file. -/
def LexError.format (e : LexError) (filename : String) : String :=
  excerpt e.message e.span e.source filename

/-- The error as it is reported for a file. -/
def ParseError.format (e : ParseError) (filename : String) : String :=
  excerpt e.message e.span e.source filename

end Markup
