import Markup.Text

/-! # Sources

A source is a text with the name it goes by in messages, and a store of fragments that were made
up while reading it. The store only grows, and its first entry is the name of the command that a
paragraph break stands for.

A span is a piece of text with the place it was found at: an offset counted from zero, a line
counted from one, and the text itself. The text usually is what stands in the source there, but
may also have been made up for the occasion. -/

namespace Markup

/-! ### Spans -/

/-- A located piece of text. -/
structure Span where
  offset : Int
  line : Int
  fragment : String
deriving DecidableEq, Repr, Inhabited

namespace Span

/-- The offset right after the span. -/
def stop (s : Span) : Int := s.offset + s.fragment.length

/-- The part between two signed indices; the line is that of the first. -/
def slice (s : Span) (first last : Int) : Span where
  offset := s.offset + first
  line := s.line + (Text.slice s.fragment.toList 0 first).count '\n'
  fragment := String.ofList (Text.slice s.fragment.toList first last)

/-- The part from a signed index to the end. -/
def sliceFrom (s : Span) (first : Int) : Span := s.slice first s.fragment.length

/-- The empty span at a signed index. -/
def emptyAt (s : Span) (index : Int) : Span := s.slice index index

end Span

/-! ### Texts with a name -/

/-- The command that a run of two or more line ends stands for. -/
def parCommand : String := "par"

/-- The name of a source that has none of its own. -/
def defaultFilename : String := "input.tx"

/-- A text to be read. -/
structure Source where
  text : String
  filename : String := defaultFilename
  arena : List String := [parCommand]
deriving DecidableEq, Repr, Inhabited

namespace Source

/-- The span of the whole text. -/
def span (s : Source) : Span := ⟨0, 1, s.text⟩

/-- Adds a fragment to the store. -/
def alloc (s : Source) (fragment : String) : Source := { s with arena := s.arena ++ [fragment] }

/-- Adds a fragment to the store, and gives it the place of `loc`. -/
def allocSpan (s : Source) (fragment : String) (loc : Span) : Span × Source :=
  (⟨loc.offset, loc.line, fragment⟩, s.alloc fragment)

/-- The name of the paragraph command at the place of `loc`. -/
def parSpan (loc : Span) : Span := ⟨loc.offset, loc.line, parCommand⟩

/-- The line and column of an offset, both counted from one; an offset outside the text stands for
the nearest end. -/
def lineCol (s : Source) (offset : Int) : Nat × Nat :=
  let cs := s.text.toList
  let offset := (max 0 (min offset cs.length)).toNat
  let line := (cs.take offset).count '\n' + 1
  let column := offset - (Text.rfind '\n' cs offset + 1) + 1
  (line, column.toNat)

/-- Two sources are alike if their texts are, whatever their names. -/
def sameText (a b : Source) : Bool := a.text == b.text

/-- A short description of a source. -/
def describe (s : Source) : String :=
  "Source(" ++ Text.quoted s.filename ++ ", " ++ toString s.text.length ++ " chars)"

end Source

end Markup
