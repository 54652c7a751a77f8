import Markup.Doc

/-! # The blocks in a tree

`Document.blocks` lists the blocks of a document at any depth: inside quotations, items, cells and
figures, and inside the notes of a heading, a label, a term, a caption or any other run.  The texts
of the headings among them are `Document.headings`. -/

namespace Markup

mutual

/-- The blocks inside, which are those of notes. -/
def Inline.within : Inline → List Block
  | .styled _ content | .quote _ content => inlinesWithin content
  | .link _ content _ _ => optionWithin content
  | .footnote content => blocksWithin content
  | .text _ | .code .. | .space | .math _ | .foreign _ => []

/-- The blocks inside a run. -/
def inlinesWithin : List Inline → List Block
  | [] => []
  | i :: rest => i.within ++ inlinesWithin rest

/-- The blocks inside a run that may be missing. -/
def optionWithin : Option (List Inline) → List Block
  | none => []
  | some content => inlinesWithin content

/-- The blocks inside a block, without the block itself. -/
def Block.inside : Block → List Block
  | .plain content | .par content | .codeBlock _ content | .heading _ content =>
    inlinesWithin content
  | .blockQuote content | .tagged content _ | .defn _ content => blocksWithin content
  | .list _ items => itemsWithin items
  | .termList items => termsWithin items
  | .table _ rows => rowsWithin rows
  | .figure content caption => blocksWithin content ++ inlinesWithin caption
  | .rule | .mathBlock _ | .foreign _ => []

/-- Blocks, each with the blocks inside it. -/
def blocksWithin : List Block → List Block
  | [] => []
  | b :: rest => b :: b.inside ++ blocksWithin rest

/-- The blocks in the items of a list. -/
def itemsWithin : List ListItem → List Block
  | [] => []
  | .mk content label :: rest => optionWithin label ++ (blocksWithin content ++ itemsWithin rest)

/-- The blocks in terms and definitions. -/
def termsWithin : List TermItem → List Block
  | [] => []
  | .mk term content :: rest => inlinesWithin term ++ (blocksWithin content ++ termsWithin rest)

/-- The blocks in the cells of a row. -/
def cellsWithin : List TableCell → List Block
  | [] => []
  | .mk content _ _ _ :: rest => blocksWithin content ++ cellsWithin rest

/-- The blocks in the rows of a table. -/
def rowsWithin : List (List TableCell) → List Block
  | [] => []
  | row :: rest => cellsWithin row ++ rowsWithin rest

end

/-- All blocks of a document, at any depth. -/
def Document.blocks (d : Document) : List Block := blocksWithin d.content

/-- The text of a heading. -/
def Block.headingText? : Block → Option String
  | .heading _ text => some (plainText text)
  | _ => none

/-- The texts of the headings of a document, at any depth. -/
def Document.headings (d : Document) : List String := d.blocks.filterMap Block.headingText?

/-- A blank run has no blocks. -/
theorem inlinesWithin_of_isBlankRun : ∀ {run : List Inline}, isBlankRun run = true →
    inlinesWithin run = []
  | [], _ => rfl
  | i :: rest, h => by
      rw [isBlankRun, List.all_cons, Bool.and_eq_true] at h
      have hrest : inlinesWithin rest = [] := inlinesWithin_of_isBlankRun h.2
      cases i with
      | text s => rw [inlinesWithin, hrest]; rfl
      | _ => exact absurd h.1 (by simp [Inline.isBlank])

end Markup
