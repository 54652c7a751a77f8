import Markup.Cli.Run
import Markup.Toml.Parser

/-! # The program

From a command line to the end of its run: `start` reads the command line and the configuration,
and `run` goes on to compile the input, once or at each change. -/

namespace Markup.Cli

variable {m : Type → Type} [Monad m] [Host m]

/-- The bytes of the configuration, if there is one. -/
def findConfig (r : Request) : m (Except Crash (Option ByteArray)) := do
  match ← Host.status r.configPath with
  | .error e =>
    return if e.cause = .missing ∨ e.cause = .notDirectory ∨ e.cause = .nulInPath then .ok none
      else .error (.file e)
  | .ok s =>
    if s.isFile then
      Host.putErr (logText r.verbosity [.readingConfig r.configPath.text])
      match ← Host.readFile r.configPath with
      | .error e => return .error (.file e)
      | .ok bytes => return .ok (some bytes)
    else return .ok none

/-- The table of a configuration; without one it is empty. -/
def readConfig (interpreter : Interpreter) : Option ByteArray → Except OptionsError Toml.Table
  | none => .ok []
  | some bytes =>
    match String.fromUTF8? bytes with
    | none => .error (.crash .undecodable)
    | some text =>
      if !interpreter.reads text then .error (.crash (.overflow .stack))
      else match Toml.parse text with
      | .error .digits => .error (.crash (.overflow .digits))
      | .error .malformed => .error .malformedConfig
      | .ok table => .ok table

/-- The options of a request. -/
def loadOptions (r : Request) (interpreter : Interpreter := {}) :
    m (Except OptionsError Options) := do
  match ← findConfig r with
  | .error crash => return .error (.crash crash)
  | .ok config => return (readConfig interpreter config).bind (Options.resolve interpreter r)

/-- What a command line comes to before anything is compiled. -/
inductive Start where
  | exit (exit : Exit)
  | go (options : Options)
deriving DecidableEq, Repr, Inhabited

/-- Reads the command line and the configuration. -/
def start (args : List String) (interpreter : Interpreter := {}) : m (Except Crash Start) := do
  match Request.parse args with
  | .error .help =>
    Host.putOut helpText
    return .ok (.exit .success)
  | .error (.usage e) =>
    Host.putErr e.report
    return .ok (.exit .failure)
  | .ok r =>
    match ← loadOptions r interpreter with
    | .error (.crash crash) => return .error crash
    | .error e =>
      tell ("error: " ++ e.message)
      return .ok (.exit .failure)
    | .ok o => return .ok (.go o)

/-- The whole run of a command line, with the pauses that it takes if it watches its input. -/
def run (args : List String) (pauses : List (m Unit)) (interpreter : Interpreter := {}) :
    m (Except Crash Exit) := do
  match ← start args interpreter with
  | .error crash => return .error crash
  | .ok (.exit exit) => return .ok exit
  | .ok (.go o) => if o.watch then watch o pauses interpreter else runOnce o interpreter

end Markup.Cli
