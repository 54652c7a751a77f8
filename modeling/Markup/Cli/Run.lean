import Markup.Cli.Host
import Markup.Cli.Options
import Markup.Compile
import Markup.Doc.Dump
import Markup.Text

/-! # Runs

A run reads its input, compiles it and writes the page (`runOnce`). It ends with an exit code, or it
breaks off without one (`Crash`): an input that is not UTF-8, an output that cannot be written, and
an interpreter that runs out of room are not reported like other errors.

A run may go on and compile its input again at each change. It looks at the input, pauses, and looks
again (`watchThrough`); a change is a time of modification other than the one last seen. Errors are
reported and do not end the watch, but a crash does. -/

namespace Markup.Cli

/-! ### Exits -/

/-- How a run ends. -/
inductive Exit where
  | success
  | malformed
  | failure
deriving DecidableEq, Repr, Inhabited

/-- The code of an exit. -/
def Exit.code : Exit → Nat
  | success => 0
  | malformed => 1
  | failure => 2

/-- A path with a NUL in it is not even asked for, so it counts as no ordinary file error. -/
def FileError.isOrdinary (e : FileError) : Bool := e.cause != .nulInPath

/-! ### Compiling -/

/-- What is logged at a verbosity. -/
def logLevel : Nat → LogLevel
  | 0 => .warning
  | 1 => .info
  | _ => .debug

/-- What a compilation gives: what it tells on the error stream, and the page. -/
structure Product where
  told : String
  html : Except Error String
deriving Inhabited

/-- The lines of log entries, as far as a verbosity shows them. -/
def logText (verbosity : Nat) (log : List LogEntry) : String :=
  String.join ((logLines (logLevel verbosity) log).map (· ++ "\n"))

/-- Compiles the text of the input. -/
def Options.compileText (o : Options) (text : String) (interpreter : Interpreter := {}) : Product :=
  let source : Source := { text, filename := o.input.text }
  match lex text with
  | .error e => ⟨"", .error (.lex e)⟩
  | .ok tokens =>
    let shown := if o.tokens then Token.dump tokens else ""
    let (outcome, log) := evaluateStandard source o.maxDepth interpreter.toInterpreter
    let logged := shown ++ logText o.verbosity log
    match outcome with
    | .error e => ⟨logged, .error e⟩
    | .ok d =>
      let evaluated := logged ++ logText o.verbosity [.evaluated o.input.text d.content.length]
      let page := interpreter.write o.html d
      if o.debug then
        match interpreter.cutDump d with
        | some part => ⟨evaluated ++ part, .error (.overflow .stack)⟩
        | none => ⟨evaluated ++ d.dump.getD "", page⟩
      else ⟨evaluated, page⟩

/-- Why there is no page. -/
inductive Failure where
  | document (error : Error)
  | file (error : FileError)
deriving DecidableEq, Repr, Inhabited

namespace Failure

/-- What is reported about a failure. -/
def report (input : Path) : Failure → String
  | document e => e.report input.text
  | file e => "error: " ++ e.message

/-- The exit that a failure leads to. -/
def exit : Failure → Exit
  | document (.lex _) | document (.parse _) => .malformed
  | document _ | file _ => .failure

end Failure

variable {m : Type → Type} [Monad m] [Host m]

/-- Writes a line to the error stream. -/
def tell (line : String) : m Unit := Host.putErr (line ++ "\n")

/-- A file error is a failure or, if it is no ordinary one, a crash. -/
def FileError.toFailure {α : Type} (e : FileError) : Except Crash (Except Failure α) :=
  if e.isOrdinary then .ok (.error (.file e)) else .error (.file e)

/-- What compiling the input comes to: an error that is none of the document breaks off the run. -/
def Product.outcome (p : Product) : Except Crash (Except Failure String) :=
  match p.html with
  | .error (.overflow resource) => .error (.overflow resource)
  | .error e => .ok (.error (.document e))
  | .ok html => .ok (.ok html)

/-- Reads the input and compiles it. -/
def compileFile (o : Options) (interpreter : Interpreter := {}) :
    m (Except Crash (Except Failure String)) := do
  match ← Host.readFile o.input with
  | .error e => return e.toFailure
  | .ok bytes =>
    match Text.decode? bytes with
    | none => return .error .undecodable
    | some text =>
      let product := o.compileText text interpreter
      Host.putErr product.told
      return product.outcome

/-- Writes the page where it goes. -/
def writePage (o : Options) (html : String) : m (Except FileError Unit) :=
  match o.output with
  | some path => Host.writeFile path html
  | none => do
    Host.putOut html
    return .ok ()

/-- Compiles the input and writes the page. -/
def runOnce (o : Options) (interpreter : Interpreter := {}) : m (Except Crash Exit) := do
  match ← compileFile o interpreter with
  | .error crash => return .error crash
  | .ok (.error failure) =>
    tell (failure.report o.input)
    return .ok failure.exit
  | .ok (.ok html) =>
    match ← writePage o html with
    | .error e => return .error (.file e)
    | .ok () => return .ok .success

/-! ### Watching -/

/-- What is told at a change: that the page is written, or why not. -/
def recompile (o : Options) (interpreter : Interpreter := {}) : m (Except Crash String) := do
  match ← compileFile o interpreter with
  | .error crash => return .error crash
  | .ok (.error failure) => return .ok (failure.report o.input)
  | .ok (.ok html) =>
    match ← writePage o html with
    | .error e =>
      return if e.isOrdinary then .ok ((Failure.file e).report o.input) else .error (.file e)
    | .ok () => return .ok ("Compiled " ++ o.input.text)

/-- One look at the input: it is compiled if its time is not the one last seen. The result is the
time seen now. -/
def watchTurn (o : Options) (seen : Int) (interpreter : Interpreter := {}) :
    m (Except Crash Int) := do
  match ← Host.status o.input with
  | .error e => return if e.isOrdinary then .ok seen else .error (.file e)
  | .ok s =>
    if s.modified = seen then return .ok seen
    else
      match ← recompile o interpreter with
      | .error crash => return .error crash
      | .ok line =>
        tell line
        return .ok s.modified

/-- The time that counts as seen at the start. -/
def neverSeen : Int := 0

/-- What is told when watching starts. -/
def watchGreeting (o : Options) : String := "Watching " ++ o.input.text ++ " for changes..."

/-- Looks at the input before each of the pauses. -/
def watchThrough (o : Options) (interpreter : Interpreter) :
    Int → List (m Unit) → m (Except Crash Unit)
  | _, [] => return .ok ()
  | seen, pause :: rest => do
    match ← watchTurn o seen interpreter with
    | .error crash => return .error crash
    | .ok seen =>
      pause
      watchThrough o interpreter seen rest

/-- Watches the input; the last of the pauses is the one that is interrupted. -/
def watch (o : Options) (pauses : List (m Unit)) (interpreter : Interpreter := {}) :
    m (Except Crash Exit) := do
  tell (watchGreeting o)
  match ← watchThrough o interpreter neverSeen pauses with
  | .error crash => return .error crash
  | .ok () => return .ok .success

end Markup.Cli
