import Markup.Library
import Markup.Token.Lexer

/-! # From text to HTML

`compile` takes a text through all stages: its indentation must be consistent, then it is
evaluated with the standard commands, and the document is written as HTML. The first stage that
fails ends it.

`diagnose` is what an editor shows for a text: at most one diagnostic, for the first error on the
way to its document. Trouble with the text itself is an error, a command that fails a warning. A
diagnostic covers a range of one line: the first line of the offending span, and at least one
character. -/

namespace Markup

/-- Writes a document as HTML, if the interpreter has room for that. -/
def Interpreter.write (interpreter : Interpreter) (options : Html.Options) (d : Document) :
    Except Error String :=
  if interpreter.writes d then (Html.render options d).mapError .render
  else .error (.overflow .stack)

/-- The HTML of a source, and what there was to tell on the way. -/
def compile (source : Source) (options : Html.Options) (maxDepth : Int)
    (interpreter : Interpreter := {}) : Except Error String × List LogEntry :=
  match lex source.text with
  | .error e => (.error (.lex e), [])
  | .ok _ =>
    let (document, log) := evaluateStandard source maxDepth interpreter
    (document.bind (interpreter.write options), log)

open Text

/-! ### Diagnostics -/

/-- How much a diagnostic matters. -/
inductive Severity where
  | error
  | warning
deriving DecidableEq, Repr, Inhabited

/-- A range of text, its end not included. -/
structure PlaceRange where
  start : Place
  stop : Place
deriving DecidableEq, Repr, Inhabited

/-- Something to show at a range. -/
structure Diagnostic where
  range : PlaceRange
  message : String
  severity : Severity
deriving DecidableEq, Repr, Inhabited

/-- The name that diagnostics are published under. -/
def diagnosticSource : String := "textecca"

/-- The place of an offset; one outside the text stands for the nearest end. -/
def position (text : String) (offset : Int) : Place :=
  let cs := text.toList
  let offset := (max 0 (min offset cs.length)).toNat
  ⟨(cs.take offset).count '\n', (offset - (rfind '\n' cs offset + 1)).toNat⟩

/-- The range of a span; without one it is the empty range at the start. -/
def rangeOf (text : String) : Option Span → PlaceRange
  | none => ⟨⟨0, 0⟩, ⟨0, 0⟩⟩
  | some span =>
    let start := position text span.offset
    let stop := position text (span.offset + max 1 (firstLine span.fragment.toList).length)
    ⟨start, if stop.line = start.line then stop else ⟨start.line, start.column + 1⟩⟩

/-- The diagnostic of an error, for the errors that an editor shows. -/
def Error.diagnostic? (text : String) : Error → Option Diagnostic
  | .lex e => some ⟨rangeOf text (some e.span), e.message, .error⟩
  | .parse e => some ⟨rangeOf text (some e.span), e.message, .error⟩
  | .command e => some ⟨rangeOf text e.span, e.message, .warning⟩
  | _ => none

/-- The diagnostics of a text. -/
def diagnose (source : Source) : List Diagnostic :=
  let outcome : Except Error Document := match lex source.text with
    | .error e => .error (.lex e)
    | .ok _ => (evaluateStandard source defaultMaxDepth).1
  match outcome with
  | .error e => (e.diagnostic? source.text).toList
  | .ok _ => []

/-! ### Notifications -/

/-- An open text document. -/
structure Notice where
  uri : String
  text : String
deriving DecidableEq, Repr, Inhabited

/-- The file name at the end of an address. -/
def Notice.filename (n : Notice) : String := (n.uri.splitOn "/").getLast?.getD n.uri

/-- What is published when a document is opened or changed: its address and diagnostics. -/
def Notice.publish (n : Notice) : String × List Diagnostic :=
  (n.uri, diagnose { text := n.text, filename := n.filename })

end Markup
