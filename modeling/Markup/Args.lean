import Markup.Call
import Markup.Doc.Node
import Markup.Error.Command

/-! # Arguments

The arguments of a call, read but not evaluated. Each is a `Deferred`, which may be used once. A
command takes the arguments it knows off an `Args`, one by one, and then checks that none is
left; taking one that is not there is an error and takes nothing. -/

namespace Markup

/-! ### Deferred content -/

/-- What a deferred argument stands for. -/
inductive DeferredContent where
  | unevaluated (pieces : List Piece)
  | evaluated (blocks : List Block)
deriving Inhabited

/-- An argument that may be used once. -/
structure Deferred where
  content : DeferredContent
  spent : Bool := false
deriving Inhabited

namespace Deferred

/-- A deferred argument of pieces. -/
def ofPieces (pieces : List Piece) : Deferred := ⟨.unevaluated pieces, false⟩

/-- A deferred argument of blocks. -/
def ofBlocks (blocks : List Block) : Deferred := ⟨.evaluated blocks, false⟩

/-- The content, for the first use only, and the deferred argument after it. -/
def use (t : Deferred) : Except CommandError DeferredContent × Deferred :=
  (if t.spent then .error ⟨.alreadyUsed, none, none⟩ else .ok t.content, { t with spent := true })

/-- Whether two deferred arguments have the same content, used or not. -/
def same (a b : Deferred) : Bool :=
  match a.content, b.content with
  | .unevaluated ps, .unevaluated ps' => ps == ps'
  | .evaluated bs, .evaluated bs' => nodesSame (blockNodes bs) (blockNodes bs')
  | _, _ => false

end Deferred

/-- The text of pieces, of which none may be a command. -/
def literalText : List Piece → Except CommandError String
  | [] => .ok ""
  | .text span :: rest => (literalText rest).map (span.fragment ++ ·)
  | .call c :: _ => .error ⟨.shape (.commandInText c.name.fragment), some c.name, none⟩

/-- The text of unevaluated content; content that was evaluated is not text any more. -/
def DeferredContent.text : DeferredContent → Except CommandError String
  | unevaluated pieces => literalText pieces
  | evaluated _ => .error ⟨.shape .evaluated, none, none⟩

/-- Uses a deferred argument for its text. -/
def Deferred.intoString (t : Deferred) : Except CommandError String × Deferred :=
  let (content, t) := t.use
  (content.bind DeferredContent.text, t)

/-! ### Keywords -/

/-- Keyword arguments in the order in which the names first came. -/
abbrev Keywords := List (String × Deferred)

/-- Sets a keyword; one that is there keeps its place. -/
def Keywords.set : Keywords → String → Deferred → Keywords
  | [], name, t => [(name, t)]
  | (n, old) :: rest, name, t =>
    if n = name then (n, t) :: rest else (n, old) :: Keywords.set rest name t

/-- The first argument of a name, and the others. -/
def Keywords.pop? : Keywords → String → Option (Deferred × Keywords)
  | [], _ => none
  | (n, t) :: rest, name =>
    if n = name then some (t, rest)
    else (Keywords.pop? rest name).map fun (found, others) => (found, (n, t) :: others)

/-! ### Arguments -/

/-- The arguments of a call that have not been taken. -/
structure Args where
  positional : List Deferred := []
  keywords : Keywords := []
deriving Inhabited

namespace Args

/-- Adds an argument that has been read; a keyword replaces an earlier one of its name. -/
def add (args : Args) (name : Option Span) (t : Deferred) : Args :=
  match name with
  | none => { args with positional := args.positional ++ [t] }
  | some name => { args with keywords := args.keywords.set name.fragment t }

/-- Reads the arguments of a call one after the other. -/
def readFrom (mode : ArgMode) (source : Source) (args : Args) :
    List Argument → Except ParseError Args
  | [] => .ok args
  | a :: rest => do
    let pieces ← mode.read source a.value
    readFrom mode source (args.add a.name (.ofPieces pieces)) rest

/-- The arguments of a call. -/
def read (mode : ArgMode) (source : Source) (arguments : List Argument) :
    Except ParseError Args := readFrom mode source {} arguments

/-- Taking arguments; a step that fails takes none. -/
abbrev Take := StateT Args (Except ArgsError)

/-- Takes the keyword `name`, else the last positional argument. -/
def popMandatory (name : String) : Take Deferred := do
  let args ← get
  match args.keywords.pop? name with
  | some (t, keywords) =>
    set { args with keywords }
    return t
  | none =>
    match args.positional.getLast? with
    | some t =>
      set { args with positional := args.positional.dropLast }
      return t
    | none => throw (.missing name)

/-- Takes the first positional argument. -/
def popPositional (name : Option String) : Take Deferred := do
  let args ← get
  match args.positional, name with
  | t :: positional, _ =>
    set { args with positional }
    return t
  | [], none => throw .tooFew
  | [], some name => throw (.missingPositional name)

/-- Takes the keyword `name`, if it is given. -/
def popOptional (name : String) : Take (Option Deferred) := do
  let args ← get
  match args.keywords.pop? name with
  | some (t, keywords) =>
    set { args with keywords }
    return some t
  | none => return none

/-- Takes the keyword `name`. -/
def popKeyword (name : String) : Take Deferred := do
  match ← popOptional name with
  | some t => return t
  | none => throw (.missingKeyword name)

/-- Takes all keywords. -/
def popKeywords : Take Keywords := do
  let args ← get
  set { args with keywords := [] }
  return args.keywords

/-- No positional argument may be left. -/
def checkNoPositional : Take Unit := do
  unless (← get).positional.isEmpty do throw .tooMany

/-- No keyword may be left. -/
def checkNoKeywords : Take Unit := do
  let keywords := (← get).keywords
  unless keywords.isEmpty do
    throw (.unexpectedKeywords ((keywords.map (·.1)).mergeSort fun a b => decide (a ≤ b)))

/-- No argument may be left. -/
def checkNone : Take Unit := do
  checkNoPositional
  checkNoKeywords

/-- Whether two argument lists hold the same arguments; keywords compare without regard to
order. -/
def same (a b : Args) : Bool :=
  a.positional.length == b.positional.length &&
    (a.positional.zip b.positional).all (fun (t, u) => t.same u) &&
    a.keywords.length == b.keywords.length &&
    a.keywords.all fun (name, t) => (b.keywords.lookup name).any t.same

end Args

/-! ### Arguments spelled out

The full content of unevaluated arguments as text, every span with its place: for looking at what
a command is given. -/

/-- Items between brackets. -/
def bracketed (items : List String) : String := "[" ++ ", ".intercalate items ++ "]"

/-- Items between parentheses; a single one has a comma after it. -/
def parenthesized : List String → String
  | [item] => "(" ++ item ++ ",)"
  | items => "(" ++ ", ".intercalate items ++ ")"

/-- A span spelled out. -/
def Span.describe (s : Span) : String :=
  "Span(offset=" ++ toString s.offset ++ ", line=" ++ toString s.line ++ ", fragment=" ++
    Text.quoted s.fragment ++ ")"

/-- An argument spelled out. -/
def Argument.describe (a : Argument) : String :=
  "Argument(name=" ++ (a.name.map Span.describe).getD "None" ++ ", value=" ++ a.value.describe ++
    ")"

/-- A call spelled out. -/
def Call.describe (c : Call) : String :=
  "Command(name=" ++ c.name.describe ++ ", args=" ++
    parenthesized (c.args.map Argument.describe) ++ ")"

/-- A piece spelled out. -/
def Piece.describe : Piece → String
  | .text span => "Text(span=" ++ span.describe ++ ")"
  | .call c => "CommandToken(command=" ++ c.describe ++ ")"

/-- A deferred argument spelled out; of blocks only the kinds are named. -/
def Deferred.describe (t : Deferred) : String :=
  match t.content with
  | .unevaluated pieces => "LazyThunk(tokens=" ++ bracketed (pieces.map Piece.describe) ++ ")"
  | .evaluated blocks => "ForcedThunk(blocks=" ++ bracketed (blocks.map Block.kindName) ++ ")"

/-- Arguments spelled out. -/
def Args.describe (a : Args) : String :=
  "ParsedArgs(" ++ bracketed (a.positional.map Deferred.describe) ++ ", \x7b" ++
    ", ".intercalate (a.keywords.map fun (k, t) => Text.quoted k ++ ": " ++ t.describe) ++ "\x7d)"

end Markup
