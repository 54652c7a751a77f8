import Markup.Doc.Builder
import Markup.Error.Located

/-! # Errors of commands

What can go wrong while a command is looked up, given its arguments or run. Such an error need
not know its place when it arises: the call it happens in fills in what is missing
(`CommandError.locate`), so the innermost call wins. -/

namespace Markup

/-! ### Arguments -/

/-- Why a command refuses its arguments. One that is `missing` could have been given by its place or
by its name. -/
inductive ArgsError where
  | tooFew
  | tooMany
  | missing (name : String)
  | missingPositional (name : String)
  | missingKeyword (name : String)
  | unexpectedKeywords (names : List String)
deriving DecidableEq, Repr, Inhabited

/-- The wording of an error. -/
def ArgsError.message : ArgsError → String
  | tooFew => "too few arguments"
  | tooMany => "too many arguments"
  | missing name => "missing argument " ++ Text.quoted name
  | missingPositional name => "missing positional argument " ++ Text.quoted name
  | missingKeyword name => "argument " ++ Text.quoted name ++ " requires a keyword"
  | unexpectedKeywords names =>
    "unknown keyword argument(s) " ++ ", ".intercalate (names.map Text.quoted)

/-! ### Causes -/

/-- Content of the wrong shape. -/
inductive ShapeFault where
  | commandInText (name : String)
  | evaluated
  | notItem
  | notTerm
  | other (message : String)
deriving DecidableEq, Repr, Inhabited

/-- The wording of a fault. -/
def ShapeFault.message : ShapeFault → String
  | commandInText name => "expected literal text, found command \\" ++ name
  | evaluated => "expected literal text, found evaluated content"
  | notItem => "only \\item may appear directly inside a list"
  | notTerm => "only \\term may appear directly inside a term list"
  | other message => message

/-- Commands nested too deeply. -/
inductive NestingFault where
  | deeperThan (limit : Int)
  | exhausted (depth : Int)
  | other (message : String)
deriving DecidableEq, Repr, Inhabited

/-- The wording of a fault. -/
def NestingFault.message : NestingFault → String
  | deeperThan limit => "commands nested deeper than " ++ toString limit ++ " levels"
  | exhausted depth => "commands nested too deeply (depth " ++ toString depth ++ ")"
  | other message => message

/-- Why a command fails. -/
inductive CommandCause where
  | failed (message : String)
  | shape (fault : ShapeFault)
  | arguments (error : ArgsError)
  | unbound (name : String)
  | malformed (error : ParseError)
  | build (error : BuildError)
  | nesting (fault : NestingFault)
  | spent (message : String)
deriving DecidableEq, Repr, Inhabited

/-- The wording of a cause. -/
def CommandCause.message : CommandCause → String
  | failed message => message
  | shape fault => fault.message
  | arguments error => "bad arguments: " ++ error.message
  | unbound name => "command \\" ++ name ++ " not defined in current environment"
  | malformed error => error.message
  | build error => error.message
  | nesting fault => fault.message
  | spent message => message

/-- An argument may be used once. -/
def CommandCause.alreadyUsed : CommandCause := .spent "argument has already been evaluated"

/-! ### Errors -/

/-- A failed command, with its place as far as it is known. -/
structure CommandError where
  cause : CommandCause
  span : Option Span := none
  source : Option String := none
deriving DecidableEq, Repr, Inhabited

namespace CommandError

/-- The message without its place. -/
def message (e : CommandError) : String := e.cause.message

/-- A malformed argument is an error where its text is wrong. -/
def ofParseError (e : ParseError) : CommandError := ⟨.malformed e, some e.span, some e.source⟩

/-- Fills in the place where it is not known. -/
def locate (e : CommandError) (span : Span) (source : String) : CommandError where
  cause := e.cause
  span := e.span <|> some span
  source := e.source <|> some source

/-- The error as it is reported for a file. -/
def format (e : CommandError) (filename : String) : String :=
  match e.span, e.source with
  | some span, some source => excerpt e.message span source filename
  | _, _ => "error: " ++ e.message

end CommandError

end Markup
