import Markup.Error.Command
import Markup.Html.Render

/-! # Errors

Everything that can go wrong between a text and its HTML, with the report each error gets. -/

namespace Markup

/-- What a run can run out of: room on the stack, or digits that a number may have where it is read
or printed. -/
inductive Resource where
  | stack
  | digits
deriving DecidableEq, Repr, Inhabited

/-- What is said where a resource runs out. -/
def Resource.message : Resource → String
  | stack => "maximum recursion depth exceeded"
  | digits => "exceeds the limit for integer string conversion"

/-- An error of any part. -/
inductive Error where
  | lex (error : LexError)
  | parse (error : ParseError)
  | arguments (error : ArgsError)
  | build (error : BuildError)
  | command (error : CommandError)
  | render (error : RenderError)
  | unpushable (kind : String)
  | overflow (resource : Resource)
  | other (message : String)
deriving DecidableEq, Repr, Inhabited

namespace Error

/-- The message without its place. -/
def message : Error → String
  | lex e => e.message
  | parse e => e.message
  | arguments e => e.message
  | build e => e.message
  | command e => e.message
  | render e => e.message
  | unpushable kind => (BuildFailure.unpushable kind).message
  | overflow resource => resource.message
  | other message => message

/-- The error as it is reported for a file, with its place if it can have one. -/
def report (filename : String) : Error → String
  | lex e => e.format filename
  | parse e => e.format filename
  | command e => e.format filename
  | e => "error: " ++ e.message

/-- The error as text of its own. -/
def text : Error → String
  | lex e => e.format "input.tx"
  | parse e => e.format "input.tx"
  | command e => e.format "input.tx"
  | e => e.message

/-- Where the error is, if it is known. -/
def span? : Error → Option Span
  | lex e => some e.span
  | parse e => some e.span
  | command e => e.span
  | _ => none

end Error

end Markup
