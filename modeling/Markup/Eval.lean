import Markup.Args
import Markup.Error
import Markup.Scope

/-! # Evaluation

Running the pieces of a source: text is pushed to the builder, and a call is looked up, given
its arguments, and run. What commands there are is not settled here: a `Library` says for each
kind of command which arguments it takes and what it does with them.

What a command does is data (`Steps`), and the arguments that it holds are used by their place
among them; one that has been used is spent (`Steps.run`). The steps never see the scope or the
depth they are run at. They are run with a `Runner`, which evaluates pieces one level further in.
So the recursion of `World.callWithin` is over the levels that are left before the limit, and the
limit, which is checked before anything else, is where it ends.

The `Interpreter` underneath has limits of its own, and a run that meets them fails
(`Failure.overflow`). By default there are none. -/

namespace Markup

/-! ### Failures -/

/-- Why evaluation stops. Of a `build` failure the call that it happens in makes an error of its
own. -/
inductive Failure where
  | command (error : CommandError)
  | build (error : BuildError)
  | unpushable (kind : String)
  | overflow (resource : Resource)
deriving DecidableEq, Repr, Inhabited

/-- A failure of the builder as a failure of evaluation. -/
def Failure.ofBuild : BuildFailure → Failure
  | .build error => .build error
  | .unpushable kind => .unpushable kind

/-- What the interpreter underneath has room for: on the stack, for looking up a call that is inside
so many others, for what its command does, for finishing a document and for writing it; and for the
digits of a number that is printed. -/
structure Interpreter where
  enters : Int → Call → Bool := fun _ _ => true
  runs : Int → Call → Bool := fun _ _ => true
  finishes : Builder → Bool := fun _ => true
  writes : Document → Bool := fun _ => true
  prints : Int → Bool := fun _ => true
deriving Inhabited

/-- Evaluation steps; what a step that fails has changed stays changed. -/
abbrev Eval := ExceptT Failure (StateM Session)

/-- How the pieces of an argument are evaluated. -/
abbrev Runner := List Piece → Eval Unit

namespace Eval

/-- A step of the builder. -/
def ofBuild {α : Type} (step : Build α) : Eval α := ExceptT.adapt Failure.ofBuild step

/-- Pushes to the builder. -/
def push (e : Element) : Eval Unit := ofBuild (Build.push e)

/-- Adds to the log. -/
def tell (e : LogEntry) : Eval Unit := modify fun s => { s with log := s.log ++ [e] }

/-- A value, or the error of a command. -/
def ofCommand {α : Type} : Except CommandError α → Eval α
  | .ok a => return a
  | .error e => throw (.command e)

/-- A step on a builder of its own; the log is kept, all else is not. -/
def nested {α : Type} (step : Eval α) : Eval α :=
  ExceptT.mk fun s =>
    let (outcome, after) := step.run { s with builder := {} }
    (outcome, { after with builder := s.builder })

end Eval

namespace DeferredContent

/-- Evaluates content into the builder. -/
def force (run : Runner) : DeferredContent → Eval Unit
  | unevaluated pieces => run pieces
  | evaluated blocks => Eval.push (.seq (blocks.map Element.ofBlock))

/-- Evaluates content to blocks. -/
def intoBlocks (run : Runner) (content : DeferredContent) : Eval (List Block) :=
  Eval.nested do
    content.force run
    Eval.ofBuild Build.intoBlocks

/-- Evaluates content to one run of inline content. -/
def intoInlines (run : Runner) (content : DeferredContent) : Eval (List Inline) :=
  Eval.nested do
    content.force run
    Eval.ofBuild Build.intoInlines

end DeferredContent

/-! ### What commands do -/

/-- What a command does, given the arguments that it holds; `i` is the place of one of them. -/
inductive Steps (α : Type) where
  | done (a : α)
  | fail (failure : Failure)
  | push (e : Element) (next : Steps α)
  | setMetadata (key value : String) (next : Steps α)
  | force (i : Nat) (next : Steps α)
  | string (i : Nat) (next : String → Steps α)
  | blocks (i : Nat) (next : List Block → Steps α)
  | inlines (i : Nat) (next : List Inline → Steps α)

namespace Steps

variable {α β : Type}

/-- Steps that go on from the result of others. -/
def bind : Steps α → (α → Steps β) → Steps β
  | done a, f => f a
  | fail failure, _ => fail failure
  | push e next, f => push e (next.bind f)
  | setMetadata key value next, f => setMetadata key value (next.bind f)
  | force i next, f => force i (next.bind f)
  | string i next, f => string i fun s => (next s).bind f
  | blocks i next, f => blocks i fun bs => (next bs).bind f
  | inlines i next, f => inlines i fun is => (next is).bind f

instance : Monad Steps where
  pure := done
  bind := bind

/-- Pushes inline content. -/
def pushInline (i : Inline) : Steps Unit := push (.inline i) (done ())

/-- Pushes a block. -/
def pushBlock (b : Block) : Steps Unit := push (.block b) (done ())

/-- Sets a key of the document. -/
def setKey (key value : String) : Steps Unit := setMetadata key value (done ())

/-- Fails with a command's error that knows no place. -/
def failWith (cause : CommandCause) : Steps α := fail (.command ⟨cause, none, none⟩)

/-- Evaluates an argument into the builder. -/
def argument (i : Nat) : Steps Unit := force i (done ())

/-- The text of an argument. -/
def textOf (i : Nat) : Steps String := string i done

/-- The blocks that an argument is evaluated to. -/
def blocksOf (i : Nat) : Steps (List Block) := blocks i done

/-- The run of inline content that an argument is evaluated to. -/
def inlinesOf (i : Nat) : Steps (List Inline) := inlines i done

end Steps

/-- Uses the argument at a place among those that are held; it is spent from then on. Where there is
none, nothing is left to be used. -/
def useAt (held : List Deferred) (i : Nat) : Eval (DeferredContent × List Deferred) := do
  let (content, spent) := (held.getD i ⟨.unevaluated [], true⟩).use
  return (← Eval.ofCommand content, held.set i spent)

/-- Takes the steps one after the other, with the arguments that are held. -/
def Steps.run {α : Type} (run : Runner) : Steps α → List Deferred → Eval α
  | done a, _ => return a
  | fail failure, _ => throw failure
  | push e next, held => do
    Eval.push e
    next.run run held
  | setMetadata key value next, held => do
    Eval.ofBuild (Build.setMetadata key value)
    next.run run held
  | force i next, held => do
    let (content, held) ← useAt held i
    content.force run
    next.run run held
  | string i next, held => do
    let (content, held) ← useAt held i
    (next (← Eval.ofCommand content.text)).run run held
  | blocks i next, held => do
    let (content, held) ← useAt held i
    (next (← content.intoBlocks run)).run run held
  | inlines i next, held => do
    let (content, held) ← useAt held i
    (next (← content.intoInlines run)).run run held

/-! ### Commands -/

/-- A command that has taken its arguments; `locals` are names that they see besides those around
the command. -/
structure Command (κ : Type) where
  arguments : List Deferred := []
  steps : Steps Unit
  locals : Option (Frame κ) := none

/-- The same command among more kinds. -/
def Command.mapKind {κ ι : Type} (f : κ → ι) (c : Command κ) : Command ι :=
  ⟨c.arguments, c.steps, c.locals.map (Frame.mapKind f)⟩

/-- Runs a command, given how its arguments are evaluated. -/
def Command.body {κ : Type} (c : Command κ) (run : Runner) : Eval Unit :=
  c.steps.run run c.arguments

/-- The commands there are: how each kind takes its arguments. -/
structure Library (κ : Type) where
  bind : κ → Args.Take (Command κ)

/-- The limit on nesting where none is set. -/
def defaultMaxDepth : Int := 128

/-- Where a call happens: `depth` calls are around it, and `maxDepth` may lie inside each other. -/
structure World (κ : Type) where
  scope : Scope κ
  source : Source
  depth : Int := 0
  maxDepth : Int := defaultMaxDepth
deriving Inhabited

/-- Evaluates pieces in turn, where `call` says what a call does. -/
def runPieces (call : Call → Eval Unit) : List Piece → Eval Unit
  | [] => return
  | .text span :: rest => do
    Eval.push (.span span)
    runPieces call rest
  | .call c :: rest => do
    call c
    runPieces call rest

namespace World

variable {κ : Type}

/-- An error at the name of a call. -/
def failAt {α : Type} (w : World κ) (c : Call) (cause : CommandCause) : Eval α :=
  throw (.command ⟨cause, some c.name, some w.source.text⟩)

/-- Looks a call up and gives the command its arguments. -/
def resolve (lib : Library κ) (w : World κ) (c : Call) : Eval (Definition κ × Command κ) := do
  let name := c.name.fragment
  match w.scope.find? name with
  | none => w.failAt c (.unbound name)
  | some d =>
    Eval.tell (.resolved name c.name.line w.depth)
    match Args.read d.mode w.source c.args with
    | .error e => throw (.command (.ofParseError e))
    | .ok args =>
      match (lib.bind d.kind).run args with
      | .error e => w.failAt c (.arguments e)
      | .ok (command, _) => return (d, command)

/-- A failure inside a call, as it leaves the call. -/
def settle (w : World κ) (c : Call) : Failure → Failure
  | .build e => .command ⟨.build e, some c.name, some w.source.text⟩
  | .overflow .stack => .command ⟨.nesting (.exhausted w.depth), some c.name, some w.source.text⟩
  | .command e => .command (e.locate c.name w.source.text)
  | .unpushable kind => .unpushable kind
  | .overflow .digits => .overflow .digits

/-- The world that the arguments of a command are evaluated in, which brings names along. -/
def inner (w : World κ) (locals : Option (Frame κ)) : World κ :=
  { w with
    scope := match locals with
      | some frame => w.scope.inside frame
      | none => w.scope
    depth := w.depth + 1 }

/-- Refuses a call that lies too deep; the error tells the limit. -/
def refuse (interpreter : Interpreter) (w : World κ) (c : Call) : Eval Unit :=
  if interpreter.prints w.maxDepth then w.failAt c (.nesting (.deeperThan w.maxDepth))
  else throw (.overflow .digits)

/-- Runs a call, where `levels` more calls may lie inside each other. -/
def callWithin (interpreter : Interpreter) (lib : Library κ) : Nat → World κ → Call → Eval Unit
  | 0, w, c => w.refuse interpreter c
  | levels + 1, w, c =>
    if interpreter.enters w.depth c then do
      let (_, command) ← w.resolve lib c
      ExceptT.adapt (w.settle c) <|
        if interpreter.runs w.depth c then
          command.body (runPieces (callWithin interpreter lib levels (w.inner command.locals)))
        else throw (.overflow .stack)
    else throw (.overflow .stack)

/-- Runs a call. -/
def call (interpreter : Interpreter) (lib : Library κ) (w : World κ) (c : Call) : Eval Unit :=
  callWithin interpreter lib (w.maxDepth - w.depth).toNat w c

/-- Evaluates pieces at this level. -/
def run (interpreter : Interpreter) (lib : Library κ) (w : World κ) : Runner :=
  runPieces (w.call interpreter lib)

end World

/-! ### Documents -/

/-- A failure of evaluation as an error. -/
def Failure.toError : Failure → Error
  | .command e => .command e
  | .build e => .build e
  | .unpushable kind => .unpushable kind
  | .overflow resource => .overflow resource

/-- A failure to finish the document, which no call can be blamed for. -/
def Failure.atEnd : Failure → Failure
  | .build e => .command ⟨.build e, none, none⟩
  | f => f

/-- Finishes the document, if the interpreter has room for that. -/
def Interpreter.finish (interpreter : Interpreter) : Eval Document := do
  if interpreter.finishes (← get).builder then
    ExceptT.adapt Failure.atEnd (Eval.ofBuild Build.intoDocument)
  else throw (.overflow .stack)

/-- Evaluates pieces to a document. -/
def evaluatePieces {κ : Type} (interpreter : Interpreter) (lib : Library κ) (w : World κ)
    (pieces : List Piece) : Eval Document := do
  w.run interpreter lib pieces
  interpreter.finish

/-- Evaluates a source to a document, and tells what there was to tell. -/
def evaluate {κ : Type} (lib : Library κ) (w : World κ) (interpreter : Interpreter := {}) :
    Except Error Document × List LogEntry :=
  match readMarkup w.source w.source.span with
  | .error e => (.error (.parse e), [])
  | .ok pieces =>
    let (outcome, session) := (evaluatePieces interpreter lib w pieces).run.run {}
    (outcome.mapError Failure.toError, session.log)

end Markup
