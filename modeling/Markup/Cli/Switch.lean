import Markup.Text
import Markup.Unicode.Category

/-! # Switches

The switches of the command line, how they are spelled, and how an argument is told to be a value
or a switch (`Argument.classify`). A long switch may be cut short as long as one spelling fits; a
short one may have its value, or further short switches, joined to it. An argument that looks like
a negative number, or has a space in it, is a value. -/

namespace Markup.Cli

/-- The switches. -/
inductive Switch where
  | help
  | output
  | config
  | standalone
  | fragment
  | css
  | lang
  | maxDepth
  | tokens
  | debug
  | watch
  | verbose
deriving DecidableEq, Repr, Inhabited

namespace Switch

/-- All switches in the order in which they are listed. -/
def all : List Switch :=
  [help, output, config, standalone, fragment, css, lang, maxDepth, tokens, debug, watch, verbose]

/-- The spellings of a switch. -/
def spellings : Switch → List String
  | help => ["-h", "--help"]
  | output => ["-o", "--output"]
  | config => ["--config"]
  | standalone => ["--standalone"]
  | fragment => ["--fragment"]
  | css => ["--css"]
  | lang => ["--lang"]
  | maxDepth => ["--max-depth"]
  | tokens => ["--tokens"]
  | debug => ["--debug"]
  | watch => ["--watch"]
  | verbose => ["-v", "--verbose"]

/-- The name of a switch in messages. -/
def label (s : Switch) : String := "/".intercalate s.spellings

/-- What the value of a switch is called, for those that have one. -/
def valueName? : Switch → Option String
  | output => some "OUTPUT"
  | config | css => some "FILE"
  | lang => some "LANG"
  | maxDepth => some "N"
  | help | standalone | fragment | tokens | debug | watch | verbose => none

/-- Whether a switch needs a value. -/
def takesValue (s : Switch) : Bool := s.valueName?.isSome

/-- What a switch is for. -/
def description : Switch → String
  | help => "show this help message and exit"
  | output => "Output file (default: stdout)"
  | config => "Config file (default: auto-discover textecca.toml)"
  | standalone => "Write a complete HTML page (default)"
  | fragment => "Write only the document body"
  | css => "Stylesheet to link (repeatable)"
  | lang => "Language of the HTML page"
  | maxDepth => "Maximum command nesting depth (default: 128)"
  | tokens => "Dump lexer tokens to stderr"
  | debug => "Dump the document tree to stderr"
  | watch => "Watch for changes and recompile"
  | verbose => "Log more (-v for info, -vv for debug)"

/-- Every spelling with its switch. -/
def spelled : List (String × Switch) := all.flatMap fun s => s.spellings.map fun name => (name, s)

/-- The switch with exactly this spelling. -/
def ofSpelling? (name : String) : Option Switch := spelled.lookup name

end Switch

/-! ### Arguments -/

/-- What is joined to a switch in one argument: text right after the letter of a short switch, or
after an equals sign. -/
inductive Joined where
  | nothing
  | letters (text : List Char)
  | equals (text : List Char)
deriving DecidableEq, Repr, Inhabited

/-- An argument; an unknown one is spelled like a switch, but is none. -/
inductive Argument where
  | value (text : String)
  | switch (switch : Switch) (joined : Joined)
  | unknown (text : String)
deriving DecidableEq, Repr, Inhabited

namespace Argument

/-- A text cut at its first equals sign, if it has one. -/
def cutEquals (cs : List Char) : List Char × Joined :=
  match cs.dropWhile (· != '=') with
  | [] => (cs, .nothing)
  | _ :: rest => (cs.takeWhile (· != '='), .equals rest)

/-- Decimal digits, at least one, up to the end or a last newline. -/
def isDigitTail (cs : List Char) : Bool :=
  let digits := cs.takeWhile fun c => (Unicode.decimalValue? c).isSome
  let rest := cs.drop digits.length
  !digits.isEmpty && (rest.isEmpty || rest == ['\n'])

/-- A text that looks like a negative number. -/
def looksNegative : List Char → Bool
  | [] => false
  | c :: rest =>
    let fraction := rest.dropWhile fun c => (Unicode.decimalValue? c).isSome
    c == '-' && (isDigitTail rest ||
      match fraction with
      | [] => false
      | p :: digits => p == '.' && isDigitTail digits)

/-- The spellings that a text may be short for, with what is joined to it. -/
def candidates (text : List Char) : List (String × Argument) :=
  match text with
  | '-' :: '-' :: _ =>
    let (start, joined) := cutEquals text
    (Switch.spelled.filter fun (name, _) => start.isPrefixOf name.toList).map fun (name, s) =>
      (name, .switch s joined)
  | '-' :: c :: rest =>
    (Switch.spelled.filter fun (name, _) => name.toList == ['-', c]).map fun (name, s) =>
      (name, .switch s (.letters rest))
  | _ => []

/-- Tells values from switches; `error` has the spellings that a text could be short for, if they
are several. -/
def classify (text : String) : Except (List String) Argument :=
  let cs := text.toList
  match cs with
  | [] => .ok (.value text)
  | c :: rest =>
    if c ≠ '-' then .ok (.value text)
    else match Switch.ofSpelling? text with
    | some s => .ok (.switch s .nothing)
    | none =>
      let (start, joined) := cutEquals cs
      match rest, Switch.ofSpelling? (String.ofList start), candidates cs with
      | [], _, _ => .ok (.value text)
      | _, some s, _ => .ok (.switch s joined)
      | _, none, [(_, found)] => .ok found
      | _, none, [] =>
        if looksNegative cs || rest.contains ' ' then .ok (.value text) else .ok (.unknown text)
      | _, none, several => .error (several.map Prod.fst)

end Argument

end Markup.Cli
