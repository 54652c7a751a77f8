import Markup.Call.Scan
import Markup.Error.Located
import Markup.Source

/-! # Reading commands

What reading a region yields: pieces of text, and calls of commands with their arguments still
unread.

A `Reader` walks through a region and gives what is scanned there its spans. Spans are asked for
at mostly increasing positions, so the reader remembers the last position whose line it knows
(`LineCursor`) and counts on from there. `Reader.command` reads one command and leaves the
reader after it; where it fails, the reader stands after the last argument that was complete.
`readMarkup` reads a whole region, and `readLiteral` takes a region as it is. -/

namespace Markup

/-! ### Pieces -/

/-- An argument in braces; one written as `name=value` has a name. -/
structure Argument where
  name : Option Span
  value : Span
deriving DecidableEq, Repr, Inhabited

/-- A command name after its backslash, and the arguments that follow. -/
structure Call where
  name : Span
  args : List Argument := []
deriving DecidableEq, Repr, Inhabited

/-- A part of a region that has been read. -/
inductive Piece where
  | text (span : Span)
  | call (call : Call)
deriving DecidableEq, Repr, Inhabited

open Text

/-! ### Lines -/

/-- A position in a region whose line is known. -/
structure LineCursor where
  position : Nat
  line : Int
deriving DecidableEq, Repr, Inhabited

/-- Moves the cursor to `start`, counting on from where it is, or from the start of the region
(at line `base`) if that lies behind. -/
def LineCursor.moveTo (text : List Char) (base : Int) (start : Nat) (c : LineCursor) :
    LineCursor :=
  let c := if start < c.position then ⟨0, base⟩ else c
  ⟨start, c.line + (((text.drop c.position).take (start - c.position)).count '\n' : Nat)⟩

/-! ### Readers -/

/-- A walk through a region: `pos` characters of its text have been read. -/
structure Reader where
  region : Span
  text : List Char
  pos : Nat
  lines : LineCursor
deriving DecidableEq, Repr, Inhabited

/-- Why reading failed, and where. -/
structure ParseStop where
  fault : ParseFault
  span : Span
deriving DecidableEq, Repr, Inhabited

/-- The error in a source. -/
def ParseStop.toError (e : ParseStop) (source : Source) : ParseError :=
  ⟨e.fault, e.span, source.text⟩

namespace Reader

/-- A reader at the start of a region. -/
def ofRegion (region : Span) : Reader := ⟨region, region.fragment.toList, 0, ⟨0, region.line⟩⟩

/-- What is still to be read. -/
def rest (r : Reader) : List Char := r.text.drop r.pos

/-- The span between a position and a signed index of the region. -/
def span (r : Reader) (start : Nat) (stop : Int) : Span × Reader :=
  let lines := r.lines.moveTo r.text r.region.line start
  (⟨r.region.offset + start, lines.line, String.ofList (Text.slice r.text start stop)⟩,
    { r with lines })

theorem fragment_span (r : Reader) (start stop : Nat) : (r.span start stop).1.fragment =
    String.ofList ((r.text.drop start).take (stop - start)) := by
  rw [span, slice_natCast]

/-- The reader `n` characters further. -/
def skip (r : Reader) (n : Nat) : Reader := { r with pos := r.pos + n }

/-- A failure between a position and a signed index. -/
def failAt (r : Reader) (fault : ParseFault) (start : Nat) (stop : Int) : ParseStop × Reader :=
  let (span, r) := r.span start stop
  (⟨fault, span⟩, r)

/-- A failure at the character at `start`, or at the end of the region. -/
def failAtChar (r : Reader) (fault : ParseFault) (start : Nat) : ParseStop × Reader :=
  r.failAt fault start (min (start + 1) r.text.length : Nat)

/-! ### Commands -/

/-- Gives a scanned argument its spans. -/
def argument (r : Reader) (a : RawArgument) : Argument × Reader :=
  let start := r.pos + a.space.length + 1
  let close := start + a.content.length
  let r := { r with pos := close + 1 }
  match splitKeyword a.content with
  | some (key, _) =>
    let (name, r) := r.span start (start + key.length : Nat)
    let (value, r) := r.span (start + key.length + 1) close
    (⟨some name, value⟩, r)
  | none =>
    let (value, r) := r.span start close
    (⟨none, value⟩, r)

/-- Gives scanned arguments their spans. -/
def arguments (r : Reader) : List RawArgument → List Argument × Reader
  | [] => ([], r)
  | a :: as =>
    let (arg, r) := r.argument a
    let (args, r) := r.arguments as
    (arg :: args, r)

/-- Gives a scanned command its spans. -/
def call (r : Reader) (name : List Char) (args : List RawArgument) : Call × Reader :=
  let (name, r) := (r.skip (name.length + 1)).span (r.pos + 1) (r.pos + 1 + name.length : Nat)
  let (args, r) := r.arguments args
  (⟨name, args⟩, r)

/-- The failure of a command whose next argument, after some space, never closes. -/
def unclosed (r : Reader) (space : List Char) : ParseStop × Reader :=
  r.failAtChar .unclosedBrace (r.pos + space.length)

/-- Reads the command that starts here, if one does. It takes all arguments that follow, of
which there must be at least `minArgs`. -/
def command (r : Reader) (minArgs : Int) : Except ParseStop (Option Call) × Reader :=
  match scanCall r.rest with
  | none => (.ok none, r)
  | some raw =>
    let start := r.pos
    let (call, r) := r.call raw.name raw.scan.args
    match raw.scan.unclosed with
    | some space =>
      let (stop, r) := r.unclosed space
      (.error stop, r)
    | none =>
      if (call.args.length : Int) < minArgs then
        let (stop, r) := r.failAt
          (.tooFewArguments minArgs call.name.fragment call.args.length) start r.pos
        (.error stop, r)
      else (.ok (some call), r)

/-! ### Regions -/

/-- Gives newlines their spans, and returns the last. -/
def breaks (r : Reader) : List Newline → Option Span × Reader
  | [] => (none, r)
  | e :: ends =>
    let (here, r) := r.span r.pos (r.pos + e.chars.length : Nat)
    let (last, r) := (r.skip e.chars.length).breaks ends
    (some (last.getD here), r)

/-- Gives a scanned part its spans. One newline is text; more stand for the paragraph command,
placed at the last of them. -/
def piece (r : Reader) : RawPiece → Piece × Reader
  | .text run =>
    let (span, r) := (r.skip run.length).span r.pos (r.pos + run.length : Nat)
    (.text span, r)
  | .breaks ends =>
    let (last, r) := r.breaks ends
    let last := last.getD default
    (if ends.length = 1 then .text last else .call ⟨Source.parSpan last, []⟩, r)
  | .call name args =>
    let (call, r) := r.call name args
    (.call call, r)

/-- Gives scanned parts their spans. -/
def pieces (r : Reader) : List RawPiece → List Piece × Reader
  | [] => ([], r)
  | p :: ps =>
    let (first, r) := r.piece p
    let (others, r) := r.pieces ps
    (first :: others, r)

/-- The failure that a scan stopped with. -/
def stopped (r : Reader) : ScanStop → ParseStop
  | .unclosed name args space => ((r.call name args).2.unclosed space).1
  | .nameless => (r.failAt .nameExpected r.pos (r.pos + 2 : Nat)).1
  | .unexpected c => (r.failAtChar (.unexpected c) r.pos).1

end Reader

/-- Reads a region of commands and text; all of it must be of that form. -/
def readRegion (region : Span) : Except ParseStop (List Piece) :=
  let r := Reader.ofRegion region
  let scan := scanRegion r.text
  let (pieces, r) := r.pieces scan.pieces
  match scan.stop with
  | none => .ok pieces
  | some stop => .error (r.stopped stop)

/-- Reads a region of a source for commands and text. -/
def readMarkup (source : Source) (region : Span) : Except ParseError (List Piece) :=
  (readRegion region).mapError (·.toError source)

/-- Takes a region as text, whatever it holds. -/
def readLiteral (region : Span) : List Piece := [.text region]

/-- Reads the command at the start of a region. -/
def readCall (source : Source) (region : Span) (minArgs : Int) : Except ParseError Call :=
  match (Reader.ofRegion region).command minArgs with
  | (.ok (some call), _) => .ok call
  | (.ok none, r) => .error ((r.failAtChar .commandExpected r.pos).1.toError source)
  | (.error stop, _) => .error (stop.toError source)

/-- How the arguments of a command are read: for commands and text, or as they are. -/
inductive ArgMode where
  | markup
  | literal
deriving DecidableEq, Repr, Inhabited

/-- Reads a region in a mode. -/
def ArgMode.read (mode : ArgMode) (source : Source) (region : Span) :
    Except ParseError (List Piece) :=
  match mode with
  | markup => readMarkup source region
  | literal => .ok (readLiteral region)

end Markup
