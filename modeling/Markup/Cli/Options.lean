import Markup.Cli.Host
import Markup.Cli.Request
import Markup.Eval
import Markup.Html.Render
import Markup.Toml.Value

/-! # Options

How a run goes, put together from a request and a configuration: what the command line says comes
before what the configuration says, and that before the defaults. Values of the wrong type in a
configuration are passed over. `Options.resolve` fails if the depth that comes out is not positive.
Before that it breaks off if a stylesheet of the configuration cannot be shown as text. -/

namespace Markup.Cli

/-! ### What ends a run early -/

/-- Why a run breaks off. -/
inductive Crash where
  | undecodable
  | file (error : FileError)
  | overflow (resource : Resource)
deriving DecidableEq, Repr, Inhabited

/-- The wording of a crash. -/
def Crash.message : Crash → String
  | undecodable => "invalid UTF-8"
  | file e => e.message
  | overflow resource => resource.message

/-- Why there are no options. -/
inductive OptionsError where
  | crash (crash : Crash)
  | malformedConfig
  | depth (value : Int)
deriving DecidableEq, Repr, Inhabited

/-- The wording of an error. -/
def OptionsError.message : OptionsError → String
  | crash c => c.message
  | malformedConfig => "malformed configuration"
  | depth value => "max depth must be at least 1, got " ++ toString value

/-- What the interpreter underneath has room for, on the stack, besides compiling: reading a
configuration, showing a value of it, and dumping a document, of which `cutDump` is the part that
has been written when the stack runs out. -/
structure Interpreter extends Markup.Interpreter where
  reads : String → Bool := fun _ => true
  shows : Toml.Value → Bool := fun _ => true
  cutDump : Document → Option String := fun _ => none
deriving Inhabited

/-! ### Options -/

/-- How a run goes. -/
structure Options where
  input : Path
  output : Option Path := none
  html : Html.Options := { standalone := true }
  maxDepth : Int := defaultMaxDepth
  tokens : Bool := false
  debug : Bool := false
  watch : Bool := false
  verbosity : Nat := 0
deriving DecidableEq, Repr, Inhabited

/-! ### Values of a configuration -/

/-- The name of the configuration file beside the input. -/
def configName : String := "textecca.toml"

/-- The value of a key in a group. -/
def setting? (config : Toml.Table) (group key : String) : Option Toml.Value :=
  match config.lookup group with
  | some (.table entries) => entries.lookup key
  | _ => none

/-- The value of a key in a group, if it is a boolean. -/
def booleanSetting? (config : Toml.Table) (group key : String) : Option Bool :=
  match setting? config group key with
  | some (.boolean b) => some b
  | _ => none

/-- The value of a key in a group, if it is a text. -/
def textSetting? (config : Toml.Table) (group key : String) : Option String :=
  match setting? config group key with
  | some (.text s) => some s
  | _ => none

/-- The value of a key in a group, if it is an integer. -/
def integerSetting? (config : Toml.Table) (group key : String) : Option Int :=
  match setting? config group key with
  | some (.integer n) => some n
  | _ => none

/-- A value as a text; its integers may be too long to be shown. -/
def Interpreter.textOf (interpreter : Interpreter) (v : Toml.Value) : Except Resource String :=
  if !interpreter.shows v then .error .stack
  else if !v.isShort then .error .digits
  else .ok v.toText

/-- The texts of a key in a group: those of an array, or the only one. -/
def Interpreter.textsSetting (interpreter : Interpreter) (config : Toml.Table)
    (group key : String) : Except Resource (List String) :=
  match setting? config group key with
  | some (.array items) => items.mapM interpreter.textOf
  | some (.text s) => .ok [s]
  | _ => .ok []

/-! ### Requests and configurations -/

/-- A text that counts as given only if it is not empty. -/
def nonempty? : Option String → Option String
  | some s => if s = "" then none else some s
  | none => none

namespace Request

/-- The path of the input. -/
def inputPath (r : Request) : Path := .ofString r.input

/-- The path of the configuration: the one given, or the usual name beside the input. -/
def configPath (r : Request) : Path :=
  match nonempty? r.config with
  | some s => .ofString s
  | none => r.inputPath.parent.child configName

/-- Whether a whole page is written. -/
def standaloneWith (r : Request) (config : Toml.Table) : Bool :=
  (r.standalone.or (booleanSetting? config "html" "standalone")).getD true

/-- The language of the page; an empty one on the command line does not count. -/
def langWith (r : Request) (config : Toml.Table) : Option String :=
  (nonempty? r.lang).or (textSetting? config "html" "lang")

/-- How deep commands may be nested. -/
def maxDepthWith (r : Request) (config : Toml.Table) : Int :=
  (r.maxDepth.or (integerSetting? config "eval" "max_depth")).getD defaultMaxDepth

end Request

/-- Options from a request and a configuration. The stylesheets are those of the configuration, then
those of the command line. -/
def Options.resolve (interpreter : Interpreter) (r : Request) (config : Toml.Table) :
    Except OptionsError Options :=
  match interpreter.textsSetting config "html" "css" with
  | .error resource => .error (.crash (.overflow resource))
  | .ok sheets =>
    let depth := r.maxDepthWith config
    if depth < 1 then .error (.depth depth)
    else .ok {
      input := r.inputPath
      output := (nonempty? r.output).map .ofString
      html := ⟨r.standaloneWith config, r.langWith config, sheets ++ r.css⟩
      maxDepth := depth
      tokens := r.tokens
      debug := r.debug
      watch := r.watch
      verbosity := r.verbosity }

end Markup.Cli
