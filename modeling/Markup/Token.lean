import Markup.Source
import Markup.Text
import Markup.Unicode.Category
import Markup.Unicode.Identifier

/-! # Tokens

The flat, indentation-aware view of a text. A line holds words, spaces, punctuation and numbers
and ends in a newline; indentation shows as tokens that open a level and close levels, and
adjacent blank lines make one token. `Token.restore` writes the text of a token list back: the
indentation of enclosing levels is not repeated in the tokens, so it is replayed from the open
levels at the first token of each line. -/

namespace Markup

open Unicode

/-! ### Classes of characters

Which characters separate words within a line, and which may stand in the name of a command. A
name starts like an identifier and goes on with identifier characters, hyphens, symbols and most
punctuation; the characters that have a meaning next to a name are kept out of it. -/

/-- Space within a line: a space separator or a tab. -/
def isInlineSpace (c : Char) : Bool := c == ' ' || c == '\t' || isSpaceSeparator c

/-- Punctuation or a symbol. -/
def isPunctOrSymbol (c : Char) : Bool := isPunctuation c || isSymbol c

/-- Symbols that end a command name. -/
def nameExcludedSymbols : List Char := ['=', '|', '$']

/-- Punctuation that ends a command name. -/
def nameExcludedPunctuation : List Char := ['"', Char.ofNat 0x27, ',', '\\', '%']

/-- A character that may start a command name. -/
def isNameStart (c : Char) : Bool := isXidStart c

/-- A character that may follow in a command name. -/
def isNameContinue (c : Char) : Bool :=
  if isXidContinue c || c == '-' then true
  else if isSymbol c then !nameExcludedSymbols.contains c
  else isOtherPunctuation c && !nameExcludedPunctuation.contains c

/-- What a run of text is made of. -/
inductive CharClass where
  | punct
  | num
  | space
  | word
deriving DecidableEq, Repr, Inhabited

/-- The class of a character; whatever is nothing else belongs to a word. -/
def CharClass.of (c : Char) : CharClass :=
  if isPunctOrSymbol c then .punct
  else if isNumber c then .num
  else if isInlineSpace c then .space
  else .word

/-! ### The tokens of a text -/

/-- What a token is. An `indent` opens a level and covers what that adds, and a `deindent` closes
levels; `blankLines` have nothing but inline space. A `newline` is empty at the end of a text
without one. -/
inductive TokenKind where
  | indent
  | deindent
  | word
  | space
  | punct
  | num
  | newline
  | blankLines
deriving DecidableEq, Repr, Inhabited

/-- The name of a kind in dumps. -/
def TokenKind.label : TokenKind → String
  | indent => "INDENT"
  | deindent => "DEINDENT"
  | word => "WORD"
  | space => "SPACE"
  | punct => "PUNCT"
  | num => "NUM"
  | newline => "NEWLINE"
  | blankLines => "BLANK_LINES"

/-- The kind of a run of one class. -/
def TokenKind.ofClass : CharClass → TokenKind
  | .punct => punct
  | .num => num
  | .space => space
  | .word => word

/-- A token of the flat view. The count matters where it stands for several levels or lines. -/
structure Token where
  kind : TokenKind
  span : Span
  count : Int := 1
deriving DecidableEq, Repr, Inhabited

namespace Token

/-! ### Writing tokens back -/

/-- Closes `count` levels. The cut is made at a signed index, so a count beyond the open levels
reaches back from the end a second time. -/
def closeLevels (levels : List String) (count : Int) : List String :=
  levels.take (Text.resolveIndex levels.length (levels.length - count))

/-- The text of tokens, given the open levels and whether a line begins. -/
def restoreFrom (levels : List String) (atLineStart : Bool) : List Token → String
  | [] => ""
  | t :: rest =>
    match t.kind with
    | .indent => restoreFrom (levels ++ [t.span.fragment]) atLineStart rest
    | .deindent => restoreFrom (closeLevels levels t.count) atLineStart rest
    | .blankLines => t.span.fragment ++ restoreFrom levels atLineStart rest
    | kind =>
      (if atLineStart then String.join levels else "") ++
        (t.span.fragment ++ restoreFrom levels (kind == .newline) rest)

/-- The text of a token list. -/
def restore (tokens : List Token) : String := restoreFrom [] true tokens

/-! ### Dumps -/

/-- Spaces in front of a text up to `width`. -/
def padLeft (width : Nat) (s : String) : String :=
  String.ofList (List.replicate (width - s.length) ' ') ++ s

/-- Spaces after a text up to `width`. -/
def padRight (width : Nat) (s : String) : String :=
  s ++ String.ofList (List.replicate (width - s.length) ' ')

/-- One token as a line: place, kind, count where it counts, and text where it has one. -/
def dumpLine (t : Token) : String :=
  let head := padLeft 4 (toString t.span.line) ++ ":" ++ padRight 6 (toString t.span.offset) ++
    " " ++ t.kind.label
  let counted := if t.kind = .deindent ∨ t.kind = .blankLines then s!"({t.count})" else ""
  let shown := if t.span.fragment.isEmpty then "" else " " ++ Text.quoted t.span.fragment
  head ++ counted ++ shown ++ "\n"

/-- A token list, one token a line. -/
def dump (tokens : List Token) : String := String.join (tokens.map dumpLine)

end Token

end Markup
