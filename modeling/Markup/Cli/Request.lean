import Markup.Cli.Switch
import Markup.Decimal

/-! # Requests

What a command line asks for. `Request.parse` goes through the arguments in order: a switch takes
the value joined to it or the value that follows, the first other value is the input, and what is
left over is refused at the end. After `--` everything is a value. The first thing that is wrong
decides (`UsageError`), except that a cut spelling that fits several switches is found before
anything else. -/

namespace Markup.Cli

/-- What a command line asks for. -/
structure Request where
  input : String := ""
  output : Option String := none
  config : Option String := none
  standalone : Option Bool := none
  css : List String := []
  lang : Option String := none
  maxDepth : Option Int := none
  tokens : Bool := false
  debug : Bool := false
  watch : Bool := false
  verbosity : Nat := 0
deriving DecidableEq, Repr, Inhabited

/-- What is wrong with a command line: a cut spelling fits several switches, a switch lacks its
value, has one that it does not take, contradicts an earlier one, or has no integer where one is
needed, there is no input, or there are too many arguments. -/
inductive UsageError where
  | ambiguous (given : String) (spellings : List String)
  | valueMissing (switch : Switch)
  | valueIgnored (switch : Switch) (value : String)
  | conflict (switch earlier : Switch)
  | notInteger (switch : Switch) (value : String)
  | inputMissing
  | unrecognized (arguments : List String)
deriving DecidableEq, Repr, Inhabited

/-- The wording of an error. -/
def UsageError.message : UsageError → String
  | ambiguous given spellings =>
    "ambiguous option: " ++ given ++ " could match " ++ ", ".intercalate spellings
  | valueMissing s => "argument " ++ s.label ++ ": expected one argument"
  | valueIgnored s value =>
    "argument " ++ s.label ++ ": ignored explicit argument " ++ Text.quoted value
  | conflict s earlier =>
    "argument " ++ s.label ++ ": not allowed with argument " ++ earlier.label
  | notInteger s value => "argument " ++ s.label ++ ": invalid int value: " ++ Text.quoted value
  | inputMissing => "the following arguments are required: input"
  | unrecognized arguments => "unrecognized arguments: " ++ " ".intercalate arguments

/-- Why a command line leads to no run. -/
inductive Refusal where
  | help
  | usage (error : UsageError)
deriving DecidableEq, Repr, Inhabited

/-! ### One argument -/

/-- What follows the flags of an argument. -/
inductive Ending where
  | nothing
  | unknown (text : String)
  | value (switch : Switch) (text : String)
  | next (switch : Switch)
deriving DecidableEq, Repr, Inhabited

/-- What is joined to a short switch, after its letter. -/
def Joined.ofTail : List Char → Joined
  | [] => .nothing
  | c :: rest => if c = '=' then .equals rest else .letters (c :: rest)

/-- The flags of short switches in one argument, and what follows them. -/
def readLetters (s : Switch) : List Char → Except UsageError (List Switch × Ending)
  | [] => .ok ([s], .nothing)
  | c :: rest =>
    if s.takesValue then .ok ([], .value s (String.ofList (c :: rest)))
    else if c = '-' then .error (.valueIgnored s (String.ofList (c :: rest)))
    else match Switch.ofSpelling? (String.ofList ['-', c]) with
    | none => .ok ([s], .unknown (String.ofList ('-' :: c :: rest)))
    | some t =>
      match Joined.ofTail rest with
      | .nothing => if t.takesValue then .ok ([s], .next t) else .ok ([s, t], .nothing)
      | .equals text =>
        if t.takesValue then .ok ([s], .value t (String.ofList text))
        else .error (.valueIgnored t (String.ofList text))
      | .letters _ => (readLetters t rest).map fun (flags, ending) => (s :: flags, ending)

/-- The flags of an argument, and what follows them. -/
def readSwitch (s : Switch) : Joined → Except UsageError (List Switch × Ending)
  | .nothing => if s.takesValue then .ok ([], .next s) else .ok ([s], .nothing)
  | .equals text =>
    if s.takesValue then .ok ([], .value s (String.ofList text))
    else .error (.valueIgnored s (String.ofList text))
  | .letters text => readLetters s text

/-! ### All arguments -/

/-- A command line that has been read up to some argument; `extra` are those that are too many. -/
structure Reading where
  request : Request := {}
  hasInput : Bool := false
  afterInput : Bool := false
  extra : List String := []
deriving DecidableEq, Repr, Inhabited

namespace Reading

/-- Takes a value that no switch asked for. -/
def value (r : Reading) (text : String) : Reading :=
  if r.hasInput then { r with afterInput := false, extra := r.extra ++ [text] }
  else { r with request.input := text, hasInput := true, afterInput := true }

/-- Sets whether a whole page is written; the two switches exclude each other. -/
def setStandalone (r : Reading) (whole : Bool) : Except Refusal Reading :=
  let (given, earlier) : Switch × Switch :=
    if whole then (.standalone, .fragment) else (.fragment, .standalone)
  if r.request.standalone = some !whole then .error (.usage (.conflict given earlier))
  else .ok { r with request.standalone := some whole }

/-- Carries out a switch without value. -/
def flag (r : Reading) : Switch → Except Refusal Reading
  | .help => .error .help
  | .standalone => r.setStandalone true
  | .fragment => r.setStandalone false
  | .tokens => .ok { r with request.tokens := true }
  | .debug => .ok { r with request.debug := true }
  | .watch => .ok { r with request.watch := true }
  | .verbose => .ok { r with request.verbosity := r.request.verbosity + 1 }
  | .output | .config | .css | .lang | .maxDepth => .ok r

/-- Carries out a switch with its value. -/
def assign (r : Reading) (s : Switch) (text : String) : Except Refusal Reading :=
  match s with
  | .output => .ok { r with request.output := some text }
  | .config => .ok { r with request.config := some text }
  | .css => .ok { r with request.css := r.request.css ++ [text] }
  | .lang => .ok { r with request.lang := some text }
  | .maxDepth =>
    match Decimal.integer? text with
    | some n => .ok { r with request.maxDepth := some n }
    | none => .error (.usage (.notInteger s text))
  | .help | .standalone | .fragment | .tokens | .debug | .watch | .verbose => .ok r

/-- Carries out switches without value in order. -/
def flags (r : Reading) : List Switch → Except Refusal Reading
  | [] => .ok r
  | s :: rest => do (← r.flag s).flags rest

/-- Takes the arguments before `--`. -/
def arguments (r : Reading) : List Argument → Except Refusal Reading
  | [] => .ok r
  | .value text :: rest => (r.value text).arguments rest
  | .unknown text :: rest =>
    arguments { r with afterInput := false, extra := r.extra ++ [text] } rest
  | .switch s joined :: rest => do
    let (given, ending) ← (readSwitch s joined).mapError .usage
    let r := { r with afterInput := false }
    match ending, rest with
    | .nothing, rest => (← r.flags given).arguments rest
    | .unknown text, rest => (← flags { r with extra := r.extra ++ [text] } given).arguments rest
    | .value s text, rest => (← (← r.flags given).assign s text).arguments rest
    | .next s, .value text :: rest => (← (← r.flags given).assign s text).arguments rest
    | .next s, _ => throw (.usage (.valueMissing s))

/-- Takes the arguments after `--`, if there is one. Right after the input the mark is no
argument of its own. -/
def afterMark (r : Reading) : Option (List String) → Reading
  | none => r
  | some texts =>
    if r.afterInput || !r.hasInput then texts.foldl value r
    else ("--" :: texts).foldl value r

/-- The request, if nothing is missing or left over. -/
def finish (r : Reading) : Except Refusal Request :=
  if !r.hasInput then .error (.usage .inputMissing)
  else if r.extra.isEmpty then .ok r.request
  else .error (.usage (.unrecognized r.extra))

end Reading

/-- Tells what each argument is. -/
def classifyAll : List String → Except Refusal (List Argument)
  | [] => .ok []
  | text :: rest =>
    match Argument.classify text with
    | .error spellings => .error (.usage (.ambiguous text spellings))
    | .ok a => (classifyAll rest).map (a :: ·)

/-- The arguments before the first `--`, and those after it if there is one. -/
def splitMark : List String → List String × Option (List String)
  | [] => ([], none)
  | text :: rest =>
    if text = "--" then ([], some rest)
    else ((text :: (splitMark rest).1), (splitMark rest).2)

/-- What a command line asks for. -/
def Request.parse (args : List String) : Except Refusal Request := do
  let (before, after) := splitMark args
  let read ← Reading.arguments {} (← classifyAll before)
  (read.afterMark after).finish

/-! ### Help -/

/-- The name of the program. -/
def programName : String := "textecca"

/-- A switch with its value, as it is listed. -/
def Switch.synopsis (s : Switch) : String :=
  ", ".intercalate (s.spellings.map fun name =>
    match s.valueName? with
    | some value => name ++ " " ++ value
    | none => name)

/-- One line on how the program is called. -/
def usageLine : String :=
  let shown := Switch.all.map fun s =>
    let name := s.spellings.headD ""
    match s.valueName? with
    | some value => "[" ++ name ++ " " ++ value ++ "]"
    | none => "[" ++ name ++ "]"
  "usage: " ++ programName ++ " " ++ " ".intercalate shown ++ " input\n"

/-- What the program tells about itself. -/
def helpText : String :=
  usageLine ++ "\ntextecca markup language compiler\n\npositional arguments:\n" ++
    "  input  Input .tx file\n\noptions:\n" ++
    String.join (Switch.all.map fun s => "  " ++ s.synopsis ++ "  " ++ s.description ++ "\n")

/-- What the program tells about a wrong command line. -/
def UsageError.report (e : UsageError) : String :=
  usageLine ++ programName ++ ": error: " ++ e.message ++ "\n"

end Markup.Cli
