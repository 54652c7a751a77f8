import Markup.Error.Located
import Markup.Text
import Markup.Token
import Markup.Unicode.Cluster

/-! # Reading tokens

`lex` reads a text line by line with the stack of open indentation prefixes, outermost first. A
line of nothing but inline space is blank and leaves the stack alone. Any other line must begin
with the open prefixes in order: if all match, what space is left opens a new level; if one does
not match, the line must have no space left there, and the levels from that one on are closed.
The rest of a line is divided into user-perceived characters, by a segmenter that is given, and
neighbours of one class make a token.

Only indentation that fits no enclosing level is refused (`LexFault.indentation`). -/

namespace Markup

open Text

/-! ### Indentation -/

/-- The open levels against the start of a line: those whose prefixes were found, those from the
first that was not, and what follows the prefixes. -/
structure LevelMatch where
  kept : List (List Char)
  missed : List (List Char)
  rest : List Char
deriving DecidableEq, Repr

/-- Takes the prefixes of the open levels off a line while they match. -/
def matchLevels : List (List Char) → List Char → LevelMatch
  | [], cs => ⟨[], [], cs⟩
  | p :: ps, cs =>
    match p.isPrefixOf? cs with
    | some after =>
      let m := matchLevels ps after
      { m with kept := p :: m.kept }
    | none => ⟨[], p :: ps, cs⟩

/-! ### Tokens of a line -/

/-- Neighbouring clusters of one class, put together; a cluster has the class of its first
character. -/
def classRuns : List (List Char) → List (CharClass × List Char)
  | [] => []
  | k :: ks =>
    let kind := CharClass.of (k.headD ' ')
    match classRuns ks with
    | (kind', run) :: rest =>
      if kind = kind' then (kind, k ++ run) :: rest else (kind, k) :: (kind', run) :: rest
    | [] => [(kind, k)]

/-- A piece of line `line` at `offset`. -/
def lineSpan (line offset : Nat) (cs : List Char) : Span := ⟨offset, line, String.ofList cs⟩

/-- Tokens of consecutive runs from `offset` on. -/
def runTokens (line offset : Nat) : List (CharClass × List Char) → List Token
  | [] => []
  | (kind, run) :: rest =>
    ⟨.ofClass kind, lineSpan line offset run, 1⟩ :: runTokens line (offset + run.length) rest

/-- The content of a line and its end as tokens. -/
def contentTokens (seg : Segmenter) (line offset : Nat) (content : List Char)
    (ending : List Char) : List Token :=
  runTokens line offset (classRuns (seg.split content)) ++
    [⟨.newline, lineSpan line (offset + content.length) ending, 1⟩]

/-! ### The walk over the lines -/

/-- What the lexer knows at the start of a line. -/
structure LexState where
  levels : List (List Char) := []
  offset : Nat := 0
  line : Nat := 1
deriving DecidableEq, Repr

/-- The state at the start of the next line. -/
def LexState.advance (s : LexState) (l : Line) (levels : List (List Char)) : LexState where
  levels := levels
  offset := s.offset + l.chars.length
  line := if l.ending.isNone then s.line else s.line + 1

/-- Why a line is refused, and where. -/
structure LexStop where
  fault : LexFault
  span : Span
deriving DecidableEq, Repr

/-- The tokens of one line, and the state after it. -/
def lexLine (seg : Segmenter) (s : LexState) (l : Line) :
    Except LexStop (List Token × LexState) :=
  if l.content.all isInlineSpace then
    .ok ([⟨.blankLines, lineSpan s.line s.offset l.chars, 1⟩], s.advance l s.levels)
  else
    let m := matchLevels s.levels l.content
    let start := s.offset + (l.content.length - m.rest.length)
    let space := m.rest.takeWhile isInlineSpace
    let body := m.rest.dropWhile isInlineSpace
    if m.missed.isEmpty then
      if space.isEmpty then
        .ok (contentTokens seg s.line start m.rest l.endingChars, s.advance l m.kept)
      else
        .ok (⟨.indent, lineSpan s.line start space, 1⟩ ::
          contentTokens seg s.line (start + space.length) body l.endingChars,
          s.advance l (m.kept ++ [space]))
    else if space.isEmpty then
      .ok (⟨.deindent, lineSpan s.line start [], m.missed.length⟩ ::
        contentTokens seg s.line start m.rest l.endingChars, s.advance l m.kept)
    else
      .error ⟨.indentation, lineSpan s.line start space⟩

/-- The tokens of the lines from a state on; levels still open at the end are closed there. -/
def lexLines (seg : Segmenter) (s : LexState) : List Line → Except LexStop (List Token)
  | [] =>
    .ok (if s.levels.isEmpty then []
      else [⟨.deindent, lineSpan s.line s.offset [], s.levels.length⟩])
  | l :: ls => do
    let (tokens, s') ← lexLine seg s l
    let rest ← lexLines seg s' ls
    return tokens ++ rest

/-- One token for two adjacent runs of blank lines. -/
def joinBlanks (a b : Token) : Token where
  kind := .blankLines
  span := { a.span with fragment := a.span.fragment ++ b.span.fragment }
  count := a.count + b.count

/-- Joins adjacent blank lines. -/
def mergeBlanks : List Token → List Token
  | [] => []
  | t :: rest =>
    match mergeBlanks rest with
    | u :: us =>
      if t.kind = .blankLines ∧ u.kind = .blankLines then joinBlanks t u :: us else t :: u :: us
    | [] => [t]

/-- The tokens of a text. -/
def lexChars (seg : Segmenter) (cs : List Char) : Except LexStop (List Token) :=
  (lexLines seg {} (linesOf cs)).map mergeBlanks

/-- The tokens of a text, or the first line that fits no enclosing level. -/
def lex (text : String) (seg : Segmenter := Unicode.graphemes) :
    Except LexError (List Token) :=
  (lexChars seg text.toList).mapError fun e => ⟨e.fault, e.span, text⟩

end Markup
