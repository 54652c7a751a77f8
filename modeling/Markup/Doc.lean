import Markup.Source
import Markup.Text

/-! # Documents

The tree that evaluation builds and the serializer writes: a document has metadata and blocks,
blocks hold inline content or further blocks, and footnotes lead from inline content back to
blocks. A value that is no node of the tree may still stand where one is expected (`Foreign`);
it is carried along, and whoever has to make sense of it refuses it. -/

namespace Markup

/-! ### Kinds -/

/-- How a run of text is set off. -/
inductive Style where
  | emph
  | strong
  | superscript
  | subscript
  | smallCaps
  | strikeout
  | underline
deriving DecidableEq, Repr, Inhabited

/-- Bullets or numbers. -/
inductive ListKind where
  | unordered
  | ordered
deriving DecidableEq, Repr, Inhabited

/-- Outer or inner quotation. -/
inductive QuoteKind where
  | primary
  | secondary
deriving DecidableEq, Repr, Inhabited

/-- The marks before and after a quotation. -/
def QuoteKind.marks : QuoteKind → String × String
  | primary => ("“", "”")
  | secondary => ("‘", "’")

/-- What a link points to. -/
inductive LinkKind where
  | url
  | label
deriving DecidableEq, Repr, Inhabited

/-- The side that text in a table leans to. -/
inductive Alignment where
  | left
  | right
  | center
deriving DecidableEq, Repr, Inhabited

/-! ### Metadata -/

/-- Keys and values in the order in which the keys were first set. -/
abbrev Metadata := List (String × String)

/-- Sets a key; one that is there keeps its place. -/
def Metadata.set : Metadata → String → String → Metadata
  | [], key, value => [(key, value)]
  | (k, v) :: rest, key, value =>
    if k = key then (k, value) :: rest else (k, v) :: Metadata.set rest key value

/-- The value of a key. -/
def Metadata.get? (m : Metadata) (key : String) : Option String := m.lookup key

/-- Metadata from pairs in which a later one for a key wins. -/
def Metadata.ofPairs (pairs : List (String × String)) : Metadata :=
  pairs.foldl (fun m (k, v) => m.set k v) []

/-! ### The tree -/

/-- A column of a table; its width is zero if unset. -/
structure TableColumn where
  alignment : Alignment := .left
  width : Float := 0.0
deriving Repr, Inhabited

/-- A value that is no part of any tree. -/
inductive Scalar where
  | text (value : String)
  | integer
  | real
  | boolean
  | absent
  | mapping
deriving DecidableEq, Repr, Inhabited

mutual

/-- Content within a line. A link without content or label shows its target. -/
inductive Inline where
  | text (text : String)
  | styled (style : Style) (content : List Inline)
  | quote (kind : QuoteKind) (content : List Inline)
  | code (content : String) (language : Option String)
  | space
  | link (target : String) (content : Option (List Inline)) (label : Option String)
      (kind : LinkKind)
  | footnote (content : List Block)
  | math (tex : String)
  | foreign (value : Foreign)

/-- Content that takes lines of its own. -/
inductive Block where
  | plain (content : List Inline)
  | par (content : List Inline)
  | codeBlock (language : Option String) (content : List Inline)
  | blockQuote (content : List Block)
  | tagged (content : List Block) (metadata : Metadata)
  | list (kind : ListKind) (items : List ListItem)
  | termList (items : List TermItem)
  | heading (level : Int) (text : List Inline)
  | rule
  | table (columns : List TableColumn) (rows : List (List TableCell))
  | figure (content : List Block) (caption : List Inline)
  | defn (kind : String) (content : List Block)
  | mathBlock (tex : String)
  | foreign (value : Foreign)

/-- An item of a list, perhaps with a label. -/
inductive ListItem where
  | mk (content : List Block) (label : Option (List Inline))

/-- A term and its definition. -/
inductive TermItem where
  | mk (term : List Inline) (content : List Block)

/-- A cell of a table. -/
inductive TableCell where
  | mk (content : List Block) (alignment : Option Alignment) (rowSpan colSpan : Int)

/-- A value in a place where it does not belong. -/
inductive Foreign where
  | inline (value : Inline)
  | block (value : Block)
  | item (value : ListItem)
  | termItem (value : TermItem)
  | cell (value : TableCell)
  | column (value : TableColumn)
  | document (metadata : Metadata) (content : List Block)
  | span (value : Span)
  | scalar (kind : Scalar)

end

deriving instance Inhabited for Inline, Block, ListItem, TermItem, TableCell, Foreign

/-- The blocks of an item. -/
def ListItem.content : ListItem → List Block
  | mk content _ => content

/-- The label of an item. -/
def ListItem.label : ListItem → Option (List Inline)
  | mk _ label => label

/-- The term of an item. -/
def TermItem.term : TermItem → List Inline
  | mk term _ => term

/-- The definition of an item. -/
def TermItem.content : TermItem → List Block
  | mk _ content => content

/-- A finished document. -/
structure Document where
  metadata : Metadata := []
  content : List Block := []
deriving Inhabited

/-- What a link shows: its content, else its label, else its target. -/
def linkText (target : String) (content : Option (List Inline)) (label : Option String) :
    List Inline :=
  match content, label with
  | some content, _ => content
  | none, some label => [.text label]
  | none, none => [.text target]

/-! ### Text without markup

The text of a run of inline content, and when such a run, or a paragraph, is blank. -/

mutual

/-- The text of inline content; notes have none. -/
def Inline.plainText : Inline → String
  | .text text => text
  | .styled _ content | .quote _ content => plainText content
  | .code content _ => content
  | .space => " "
  | .link target content label _ => linkPlainText target label content
  | .footnote _ => ""
  | .math tex => tex
  | .foreign _ => ""

/-- The text of a run of inline content. -/
def plainText : List Inline → String
  | [] => ""
  | i :: rest => i.plainText ++ plainText rest

/-- The text that a link shows. -/
def linkPlainText (target : String) (label : Option String) : Option (List Inline) → String
  | some content => plainText content
  | none => label.getD target

end

/-- Inline content that is whitespace and nothing else. -/
def Inline.isBlank : Inline → Bool
  | .text s => Text.isBlank s
  | _ => false

/-- A run of nothing but whitespace. -/
def isBlankRun (run : List Inline) : Bool := run.all Inline.isBlank

/-- A paragraph, or loose text, of nothing but whitespace. -/
def Block.isBlank : Block → Bool
  | .par content | .plain content => isBlankRun content
  | _ => false

end Markup
