import Markup.Doc

/-! # The leaves of a document

What a tree holds at its ends, read in document order: the label of an item before its content, a
term before its definition, the content of a figure before its caption, the rows of a table one
after the other, and a note where it is referred to.  `blocksLeaves` lists the leaves of blocks,
and the text of a leaf is `Leaf.chars`.  The leaves of parts put together are the leaves of the
one followed by those of the other. -/

namespace Markup

/-- What a tree ends in: inline content with nothing inside it, or a formula on its own lines. -/
inductive Leaf where
  | inline (value : Inline)
  | formula (tex : String)

/-- The text of a leaf; spaces and links without content have none. -/
def Leaf.chars : Leaf → List Char
  | .inline (.text text) => text.toList
  | .inline (.code content _) => content.toList
  | .inline (.math tex) => tex.toList
  | .inline _ => []
  | .formula tex => tex.toList

mutual

/-- The leaves of inline content. -/
def Inline.leaves : Inline → List Leaf
  | .styled _ content | .quote _ content => inlinesLeaves content
  | .link target content label kind =>
    optionLeaves [.inline (.link target none label kind)] content
  | .footnote content => blocksLeaves content
  | .text text => [.inline (.text text)]
  | .code content language => [.inline (.code content language)]
  | .space => [.inline .space]
  | .math tex => [.inline (.math tex)]
  | .foreign value => [.inline (.foreign value)]

/-- The leaves of a run of inline content. -/
def inlinesLeaves : List Inline → List Leaf
  | [] => []
  | i :: rest => i.leaves ++ inlinesLeaves rest

/-- The leaves of a run, or other leaves where it is missing. -/
def optionLeaves (other : List Leaf) : Option (List Inline) → List Leaf
  | none => other
  | some content => inlinesLeaves content

/-- The leaves of a block. -/
def Block.leaves : Block → List Leaf
  | .plain content | .par content | .codeBlock _ content | .heading _ content =>
    inlinesLeaves content
  | .blockQuote content | .tagged content _ | .defn _ content => blocksLeaves content
  | .list _ items => itemsLeaves items
  | .termList items => termsLeaves items
  | .rule => []
  | .table _ rows => rowsLeaves rows
  | .figure content caption => blocksLeaves content ++ inlinesLeaves caption
  | .mathBlock tex => [.formula tex]
  | .foreign _ => []

/-- The leaves of blocks. -/
def blocksLeaves : List Block → List Leaf
  | [] => []
  | b :: rest => b.leaves ++ blocksLeaves rest

/-- The leaves of items, the label of each first. -/
def itemsLeaves : List ListItem → List Leaf
  | [] => []
  | .mk content label :: rest => optionLeaves [] label ++ blocksLeaves content ++ itemsLeaves rest

/-- The leaves of terms and definitions. -/
def termsLeaves : List TermItem → List Leaf
  | [] => []
  | .mk term content :: rest => inlinesLeaves term ++ blocksLeaves content ++ termsLeaves rest

/-- The leaves of the cells of a row. -/
def cellsLeaves : List TableCell → List Leaf
  | [] => []
  | .mk content _ _ _ :: rest => blocksLeaves content ++ cellsLeaves rest

/-- The leaves of the rows of a table. -/
def rowsLeaves : List (List TableCell) → List Leaf
  | [] => []
  | row :: rest => cellsLeaves row ++ rowsLeaves rest

end

/-! ### Putting parts together -/

@[simp] theorem inlinesLeaves_append : ∀ run rest : List Inline,
    inlinesLeaves (run ++ rest) = inlinesLeaves run ++ inlinesLeaves rest
  | [], _ => rfl
  | i :: run, rest => by simp [inlinesLeaves, inlinesLeaves_append run rest]

@[simp] theorem blocksLeaves_append : ∀ bs rest : List Block,
    blocksLeaves (bs ++ rest) = blocksLeaves bs ++ blocksLeaves rest
  | [], _ => rfl
  | b :: bs, rest => by simp [blocksLeaves, blocksLeaves_append bs rest]

@[simp] theorem itemsLeaves_append : ∀ items rest : List ListItem,
    itemsLeaves (items ++ rest) = itemsLeaves items ++ itemsLeaves rest
  | [], _ => rfl
  | .mk content label :: items, rest => by simp [itemsLeaves, itemsLeaves_append items rest]

@[simp] theorem termsLeaves_append : ∀ items rest : List TermItem,
    termsLeaves (items ++ rest) = termsLeaves items ++ termsLeaves rest
  | [], _ => rfl
  | .mk term content :: items, rest => by simp [termsLeaves, termsLeaves_append items rest]

@[simp] theorem rowsLeaves_append : ∀ rows rest : List (List TableCell),
    rowsLeaves (rows ++ rest) = rowsLeaves rows ++ rowsLeaves rest
  | [], _ => rfl
  | row :: rows, rest => by simp [rowsLeaves, rowsLeaves_append rows rest]

end Markup
