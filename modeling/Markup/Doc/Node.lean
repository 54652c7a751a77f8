import Markup.Doc

/-! # Documents as labelled trees

A uniform view of the document tree: every node has the name of its kind and named fields, which
are texts, numbers, choices, metadata, or lists of further nodes. Dumps and comparisons work on
this view, so that they need not know the kinds one by one. -/

namespace Markup

/-! ### Names -/

/-- The name of a style. -/
def Style.name : Style → String
  | emph => "EMPH"
  | strong => "STRONG"
  | superscript => "SUPERSCRIPT"
  | subscript => "SUBSCRIPT"
  | smallCaps => "SMALL_CAPS"
  | strikeout => "STRIKEOUT"
  | underline => "UNDERLINE"

/-- The name of a kind of list. -/
def ListKind.name : ListKind → String
  | unordered => "UNORDERED"
  | ordered => "ORDERED"

/-- The name of a kind of quotation. -/
def QuoteKind.name : QuoteKind → String
  | primary => "PRIMARY"
  | secondary => "SECONDARY"

/-- The name of a kind of link. -/
def LinkKind.name : LinkKind → String
  | url => "URL"
  | label => "LABEL"

/-- The name of a side. -/
def Alignment.name : Alignment → String
  | left => "LEFT"
  | right => "RIGHT"
  | center => "CENTER"

/-- The name of a kind of scalar. -/
def Scalar.name : Scalar → String
  | text _ => "str"
  | integer => "int"
  | real => "float"
  | boolean => "bool"
  | absent => "NoneType"
  | mapping => "dict"

mutual

/-- The name of a kind of inline content. -/
def Inline.kindName : Inline → String
  | .text _ => "Text"
  | .styled .. => "Styled"
  | .quote .. => "Quote"
  | .code .. => "Code"
  | .space => "Space"
  | .link .. => "Link"
  | .footnote _ => "Footnote"
  | .math _ => "Math"
  | .foreign value => value.kindName

/-- The name of a kind of block. -/
def Block.kindName : Block → String
  | .plain _ => "Plain"
  | .par _ => "Par"
  | .codeBlock .. => "CodeBlock"
  | .blockQuote _ => "BlockQuote"
  | .tagged .. => "Tagged"
  | .list .. => "List"
  | .termList _ => "TermList"
  | .heading .. => "Heading"
  | .rule => "Rule"
  | .table .. => "Table"
  | .figure .. => "Figure"
  | .defn .. => "Defn"
  | .mathBlock _ => "MathBlock"
  | .foreign value => value.kindName

/-- The name of a kind of value. -/
def Foreign.kindName : Foreign → String
  | .inline value => value.kindName
  | .block value => value.kindName
  | .item _ => "ListItem"
  | .termItem _ => "TermListItem"
  | .cell _ => "TableCell"
  | .column _ => "TableColumn"
  | .document .. => "Document"
  | .span _ => "Span"
  | .scalar kind => kind.name

end

/-! ### The view -/

mutual

/-- A node with its kind and fields, or a value that is no node. -/
inductive Node where
  | mk (kind : String) (fields : List (String × Field))
  | scalar (kind : Scalar)

/-- What a field of a node holds. -/
inductive Field where
  | absent
  | text (value : String)
  | int (value : Int)
  | float (value : Float)
  | choice (name : String)
  | metadata (value : Metadata)
  | nodes (value : List Node)
  | rows (value : List (List Node))

end

deriving instance Inhabited for Node, Field

/-- A text that may be missing. -/
def Field.ofText? : Option String → Field
  | some s => .text s
  | none => .absent

/-- A span as a node. -/
def Span.node (s : Span) : Node :=
  .mk "Span" [("offset", .int s.offset), ("line", .int s.line), ("fragment", .text s.fragment)]

/-- A column as a node. -/
def TableColumn.node (c : TableColumn) : Node :=
  .mk "TableColumn" [("alignment", .choice c.alignment.name), ("width", .float c.width)]

mutual

/-- Inline content as a node. -/
def Inline.node : Inline → Node
  | .text text => .mk "Text" [("text", .text text)]
  | .styled style content =>
    .mk "Styled" [("style", .choice style.name), ("content", .nodes (inlineNodes content))]
  | .quote kind content =>
    .mk "Quote" [("kind", .choice kind.name), ("content", .nodes (inlineNodes content))]
  | .code content language =>
    .mk "Code" [("content", .text content), ("language", .ofText? language)]
  | .space => .mk "Space" []
  | .link target content label kind =>
    .mk "Link" [("target", .text target), ("content", inlinesField content),
      ("label", .ofText? label), ("kind", .choice kind.name)]
  | .footnote content => .mk "Footnote" [("content", .nodes (blockNodes content))]
  | .math tex => .mk "Math" [("tex", .text tex)]
  | .foreign value => value.node

/-- A run of inline content as nodes. -/
def inlineNodes : List Inline → List Node
  | [] => []
  | i :: rest => i.node :: inlineNodes rest

/-- Inline content that may be missing. -/
def inlinesField : Option (List Inline) → Field
  | none => .absent
  | some content => .nodes (inlineNodes content)

/-- A block as a node. -/
def Block.node : Block → Node
  | .plain content => .mk "Plain" [("content", .nodes (inlineNodes content))]
  | .par content => .mk "Par" [("content", .nodes (inlineNodes content))]
  | .codeBlock language content =>
    .mk "CodeBlock" [("language", .ofText? language), ("content", .nodes (inlineNodes content))]
  | .blockQuote content => .mk "BlockQuote" [("content", .nodes (blockNodes content))]
  | .tagged content metadata =>
    .mk "Tagged" [("content", .nodes (blockNodes content)), ("meta", .metadata metadata)]
  | .list kind items =>
    .mk "List" [("kind", .choice kind.name), ("items", .nodes (itemNodes items))]
  | .termList items => .mk "TermList" [("items", .nodes (termNodes items))]
  | .heading level text =>
    .mk "Heading" [("level", .int level), ("text", .nodes (inlineNodes text))]
  | .rule => .mk "Rule" []
  | .table columns rows =>
    .mk "Table" [("columns", .nodes (columns.map TableColumn.node)),
      ("rows", .rows (rowNodes rows))]
  | .figure content caption =>
    .mk "Figure" [("content", .nodes (blockNodes content)),
      ("caption", .nodes (inlineNodes caption))]
  | .defn kind content =>
    .mk "Defn" [("kind", .text kind), ("content", .nodes (blockNodes content))]
  | .mathBlock tex => .mk "MathBlock" [("tex", .text tex)]
  | .foreign value => value.node

/-- Blocks as nodes. -/
def blockNodes : List Block → List Node
  | [] => []
  | b :: rest => b.node :: blockNodes rest

/-- An item of a list as a node. -/
def ListItem.node : ListItem → Node
  | .mk content label =>
    .mk "ListItem" [("content", .nodes (blockNodes content)), ("label", inlinesField label)]

/-- Items of a list as nodes. -/
def itemNodes : List ListItem → List Node
  | [] => []
  | i :: rest => i.node :: itemNodes rest

/-- A term and its definition as a node. -/
def TermItem.node : TermItem → Node
  | .mk term content =>
    .mk "TermListItem" [("term", .nodes (inlineNodes term)),
      ("content", .nodes (blockNodes content))]

/-- Terms and their definitions as nodes. -/
def termNodes : List TermItem → List Node
  | [] => []
  | i :: rest => i.node :: termNodes rest

/-- A cell of a table as a node. -/
def TableCell.node : TableCell → Node
  | .mk content alignment rowSpan colSpan =>
    .mk "TableCell" [("content", .nodes (blockNodes content)),
      ("alignment", (alignment.map (Field.choice ·.name)).getD .absent),
      ("row_span", .int rowSpan), ("col_span", .int colSpan)]

/-- The cells of a row as nodes. -/
def cellNodes : List TableCell → List Node
  | [] => []
  | c :: rest => c.node :: cellNodes rest

/-- The rows of a table as nodes. -/
def rowNodes : List (List TableCell) → List (List Node)
  | [] => []
  | r :: rest => cellNodes r :: rowNodes rest

/-- A value out of place as a node. -/
def Foreign.node : Foreign → Node
  | .inline value => value.node
  | .block value => value.node
  | .item value => value.node
  | .termItem value => value.node
  | .cell value => value.node
  | .column value => value.node
  | .document metadata content =>
    .mk "Document" [("meta", .metadata metadata), ("content", .nodes (blockNodes content))]
  | .span value => value.node
  | .scalar kind => .scalar kind

end

/-! ### Comparison -/

/-- Whether the same keys have the same values, in whatever order. -/
def Metadata.same (a b : Metadata) : Bool :=
  a.length == b.length && a.all fun (k, v) => b.get? k == some v

mutual

/-- Whether two nodes are alike; metadata compares without regard to order. -/
def Node.same : Node → Node → Bool
  | .mk kind fields, .mk kind' fields' => kind == kind' && fieldsSame fields fields'
  | .scalar kind, .scalar kind' => kind == kind'
  | _, _ => false

/-- Whether two lists of fields are alike. -/
def fieldsSame : List (String × Field) → List (String × Field) → Bool
  | [], [] => true
  | (name, f) :: rest, (name', f') :: rest' => name == name' && f.same f' && fieldsSame rest rest'
  | _, _ => false

/-- Whether two fields are alike. -/
def Field.same : Field → Field → Bool
  | .absent, .absent => true
  | .text s, .text s' => s == s'
  | .int n, .int n' => n == n'
  | .float x, .float x' => x == x'
  | .choice n, .choice n' => n == n'
  | .metadata m, .metadata m' => m.same m'
  | .nodes ns, .nodes ns' => nodesSame ns ns'
  | .rows rs, .rows rs' => rowsSame rs rs'
  | _, _ => false

/-- Whether two lists of nodes are alike. -/
def nodesSame : List Node → List Node → Bool
  | [], [] => true
  | n :: rest, n' :: rest' => n.same n' && nodesSame rest rest'
  | _, _ => false

/-- Whether two lists of rows are alike. -/
def rowsSame : List (List Node) → List (List Node) → Bool
  | [], [] => true
  | r :: rest, r' :: rest' => nodesSame r r' && rowsSame rest rest'
  | _, _ => false

end

end Markup
