import Markup.Doc
import Markup.Html.Render

/-! # One list of blocks in the place of another

Lists of blocks stand all over a document: it is one itself, and quotations, tagged blocks,
definitions and figures hold one, as do the items of lists, the definitions of terms, the cells of
tables, and notes, which may be anywhere in a run.  Blocks of the first kind are written on lines of
their own, those of the second kind without the tags of a lone paragraph (`Setting`).

`Document.Replaced s old new d d'` says that `d'` is `d` with the blocks `new` in the place of one
list of blocks `old` that stands in the setting `s`, at any depth.  The rest of the document does
not see it: texts stay the same, since notes have none (`RunReplaced.plainText_eq`), and if `old`
and `new` have as many notes, so have the two documents (`BlocksReplaced.blocksNotes_eq`). -/

namespace Markup

/-- How a list of blocks is written. -/
inductive Setting where
  /-- On lines of their own: the blocks of a document, a quotation, a tagged block, a definition or
  a figure. -/
  | lines
  /-- Without the tags of a lone paragraph: the blocks of an item, of the definition of a term, of a
  cell or of a note. -/
  | tight
deriving DecidableEq, Repr

section replaced

variable (s : Setting) (old new : List Block)

mutual

/-- Inline content with `new` for one list `old` in the setting `s`. -/
inductive Inline.Replaced : Inline → Inline → Prop
  | styled {style : Style} {run run' : List Inline} (h : RunReplaced run run') :
      Inline.Replaced (.styled style run) (.styled style run')
  | quote {kind : QuoteKind} {run run' : List Inline} (h : RunReplaced run run') :
      Inline.Replaced (.quote kind run) (.quote kind run')
  | link {target : String} {label : Option String} {kind : LinkKind} {run run' : List Inline}
      (h : RunReplaced run run') :
      Inline.Replaced (.link target (some run) label kind) (.link target (some run') label kind)
  | footnote {bs bs' : List Block} (h : BlocksReplaced .tight bs bs') :
      Inline.Replaced (.footnote bs) (.footnote bs')

/-- A run with `new` for one list `old`. -/
inductive RunReplaced : List Inline → List Inline → Prop
  | head {i i' : Inline} {rest : List Inline} (h : Inline.Replaced i i') :
      RunReplaced (i :: rest) (i' :: rest)
  | tail {i : Inline} {rest rest' : List Inline} (h : RunReplaced rest rest') :
      RunReplaced (i :: rest) (i :: rest')

/-- A block with `new` for one list `old` inside it. -/
inductive Block.Replaced : Block → Block → Prop
  | plain {run run' : List Inline} (h : RunReplaced run run') :
      Block.Replaced (.plain run) (.plain run')
  | par {run run' : List Inline} (h : RunReplaced run run') : Block.Replaced (.par run) (.par run')
  | codeBlock {language : Option String} {run run' : List Inline} (h : RunReplaced run run') :
      Block.Replaced (.codeBlock language run) (.codeBlock language run')
  | blockQuote {bs bs' : List Block} (h : BlocksReplaced .lines bs bs') :
      Block.Replaced (.blockQuote bs) (.blockQuote bs')
  | tagged {metadata : Metadata} {bs bs' : List Block} (h : BlocksReplaced .lines bs bs') :
      Block.Replaced (.tagged bs metadata) (.tagged bs' metadata)
  | list {kind : ListKind} {items items' : List ListItem} (h : ItemsReplaced items items') :
      Block.Replaced (.list kind items) (.list kind items')
  | termList {items items' : List TermItem} (h : TermsReplaced items items') :
      Block.Replaced (.termList items) (.termList items')
  | heading {level : Int} {run run' : List Inline} (h : RunReplaced run run') :
      Block.Replaced (.heading level run) (.heading level run')
  | table {columns : List TableColumn} {rows rows' : List (List TableCell)}
      (h : RowsReplaced rows rows') : Block.Replaced (.table columns rows) (.table columns rows')
  | figure {caption : List Inline} {bs bs' : List Block} (h : BlocksReplaced .lines bs bs') :
      Block.Replaced (.figure bs caption) (.figure bs' caption)
  | caption {bs : List Block} {run run' : List Inline} (h : RunReplaced run run') :
      Block.Replaced (.figure bs run) (.figure bs run')
  | defn {kind : String} {bs bs' : List Block} (h : BlocksReplaced .lines bs bs') :
      Block.Replaced (.defn kind bs) (.defn kind bs')

/-- A list of blocks with `new` for one list `old`: for the whole list, if it stands in the setting
`s`, or inside one of the blocks. -/
inductive BlocksReplaced : Setting → List Block → List Block → Prop
  | here : BlocksReplaced s old new
  | inside {t : Setting} {bs bs' : List Block} (h : OneReplaced bs bs') : BlocksReplaced t bs bs'

/-- Blocks, one of which has `new` for one list `old` inside it. -/
inductive OneReplaced : List Block → List Block → Prop
  | head {b b' : Block} {rest : List Block} (h : Block.Replaced b b') :
      OneReplaced (b :: rest) (b' :: rest)
  | tail {b : Block} {rest rest' : List Block} (h : OneReplaced rest rest') :
      OneReplaced (b :: rest) (b :: rest')

/-- The items of a list with `new` for one list `old`. -/
inductive ItemsReplaced : List ListItem → List ListItem → Prop
  | content {bs bs' : List Block} {label : Option (List Inline)} {rest : List ListItem}
      (h : BlocksReplaced .tight bs bs') :
      ItemsReplaced (.mk bs label :: rest) (.mk bs' label :: rest)
  | label {bs : List Block} {run run' : List Inline} {rest : List ListItem}
      (h : RunReplaced run run') :
      ItemsReplaced (.mk bs (some run) :: rest) (.mk bs (some run') :: rest)
  | tail {item : ListItem} {rest rest' : List ListItem} (h : ItemsReplaced rest rest') :
      ItemsReplaced (item :: rest) (item :: rest')

/-- Terms and definitions with `new` for one list `old`. -/
inductive TermsReplaced : List TermItem → List TermItem → Prop
  | content {term : List Inline} {bs bs' : List Block} {rest : List TermItem}
      (h : BlocksReplaced .tight bs bs') :
      TermsReplaced (.mk term bs :: rest) (.mk term bs' :: rest)
  | term {run run' : List Inline} {bs : List Block} {rest : List TermItem}
      (h : RunReplaced run run') : TermsReplaced (.mk run bs :: rest) (.mk run' bs :: rest)
  | tail {item : TermItem} {rest rest' : List TermItem} (h : TermsReplaced rest rest') :
      TermsReplaced (item :: rest) (item :: rest')

/-- The cells of a row with `new` for one list `old`. -/
inductive CellsReplaced : List TableCell → List TableCell → Prop
  | head {alignment : Option Alignment} {rowSpan colSpan : Int} {bs bs' : List Block}
      {rest : List TableCell} (h : BlocksReplaced .tight bs bs') :
      CellsReplaced (.mk bs alignment rowSpan colSpan :: rest)
        (.mk bs' alignment rowSpan colSpan :: rest)
  | tail {cell : TableCell} {rest rest' : List TableCell} (h : CellsReplaced rest rest') :
      CellsReplaced (cell :: rest) (cell :: rest')

/-- The rows of a table with `new` for one list `old`. -/
inductive RowsReplaced : List (List TableCell) → List (List TableCell) → Prop
  | head {row row' : List TableCell} {rest : List (List TableCell)} (h : CellsReplaced row row') :
      RowsReplaced (row :: rest) (row' :: rest)
  | tail {row : List TableCell} {rest rest' : List (List TableCell)} (h : RowsReplaced rest rest') :
      RowsReplaced (row :: rest) (row :: rest')

end

/-- A document with `new` for one list `old` in the setting `s`. -/
def Document.Replaced (d d' : Document) : Prop :=
  d'.metadata = d.metadata ∧ BlocksReplaced s old new .lines d.content d'.content

end replaced

variable {s : Setting} {old new : List Block}

/-! ### Texts -/

mutual

theorem Inline.Replaced.plainText_eq : ∀ {i i' : Inline}, i.Replaced s old new i' →
    i'.plainText = i.plainText
  | _, _, .styled h | _, _, .quote h => by
      rw [Inline.plainText, Inline.plainText]
      exact RunReplaced.plainText_eq h
  | _, _, .link h => by
      rw [Inline.plainText, Inline.plainText, linkPlainText, linkPlainText]
      exact RunReplaced.plainText_eq h
  | _, _, .footnote _ => rfl

theorem RunReplaced.plainText_eq : ∀ {run run' : List Inline}, RunReplaced s old new run run' →
    plainText run' = plainText run
  | _, _, .head h => by rw [plainText, plainText, Inline.Replaced.plainText_eq h]
  | _, _, .tail h => by rw [plainText, plainText, RunReplaced.plainText_eq h]

end

/-- A run that holds blocks is not blank. -/
theorem RunReplaced.not_blank {run run' : List Inline} (h : RunReplaced s old new run run') :
    isBlankRun run = false ∧ isBlankRun run' = false := by
  induction run generalizing run' with
  | nil => cases h
  | cons i rest ih =>
      cases h with
      | head h => cases h <;> exact ⟨rfl, rfl⟩
      | tail h =>
          obtain ⟨hrest, hrest'⟩ := ih h
          unfold isBlankRun at hrest hrest' ⊢
          rw [List.all_cons, List.all_cons, hrest, hrest', Bool.and_false]
          exact ⟨rfl, rfl⟩

/-! ### Notes -/

section notes

open Html

mutual

theorem Inline.Replaced.inlineNotes_eq (hnotes : blocksNotes new = blocksNotes old) :
    ∀ {i i' : Inline}, i.Replaced s old new i' → inlineNotes i' = inlineNotes i
  | _, _, .styled h | _, _, .quote h => RunReplaced.inlinesNotes_eq hnotes h
  | _, _, .link h => RunReplaced.inlinesNotes_eq hnotes h
  | _, _, .footnote h => congrArg (· + 1) (BlocksReplaced.blocksNotes_eq hnotes h)

theorem RunReplaced.inlinesNotes_eq (hnotes : blocksNotes new = blocksNotes old) :
    ∀ {run run' : List Inline}, RunReplaced s old new run run' →
      inlinesNotes run' = inlinesNotes run
  | _, _, .head h => congrArg (· + _) (Inline.Replaced.inlineNotes_eq hnotes h)
  | _, _, .tail h => congrArg (_ + ·) (RunReplaced.inlinesNotes_eq hnotes h)

theorem Block.Replaced.blockNotes_eq (hnotes : blocksNotes new = blocksNotes old) :
    ∀ {b b' : Block}, b.Replaced s old new b' → Html.blockNotes b' = Html.blockNotes b
  | _, _, .plain h | _, _, .par h | _, _, .codeBlock h | _, _, .heading h =>
      RunReplaced.inlinesNotes_eq hnotes h
  | _, _, .blockQuote h | _, _, .tagged h | _, _, .defn h => BlocksReplaced.blocksNotes_eq hnotes h
  | _, _, .list h => ItemsReplaced.itemsNotes_eq hnotes h
  | _, _, .termList h => TermsReplaced.termsNotes_eq hnotes h
  | _, _, .table h => RowsReplaced.rowsNotes_eq hnotes h
  | _, _, .figure h => congrArg (· + _) (BlocksReplaced.blocksNotes_eq hnotes h)
  | _, _, .caption h => congrArg (_ + ·) (RunReplaced.inlinesNotes_eq hnotes h)

theorem BlocksReplaced.blocksNotes_eq (hnotes : blocksNotes new = blocksNotes old) :
    ∀ {t : Setting} {bs bs' : List Block}, BlocksReplaced s old new t bs bs' →
      blocksNotes bs' = blocksNotes bs
  | _, _, _, .here => hnotes
  | _, _, _, .inside h => OneReplaced.blocksNotes_eq hnotes h

theorem OneReplaced.blocksNotes_eq (hnotes : blocksNotes new = blocksNotes old) :
    ∀ {bs bs' : List Block}, OneReplaced s old new bs bs' → blocksNotes bs' = blocksNotes bs
  | _, _, .head h => congrArg (· + _) (Block.Replaced.blockNotes_eq hnotes h)
  | _, _, .tail h => congrArg (_ + ·) (OneReplaced.blocksNotes_eq hnotes h)

theorem ItemsReplaced.itemsNotes_eq (hnotes : blocksNotes new = blocksNotes old) :
    ∀ {items items' : List ListItem}, ItemsReplaced s old new items items' →
      itemsNotes items' = itemsNotes items
  | _, _, .content h => congrArg (_ + · + _) (BlocksReplaced.blocksNotes_eq hnotes h)
  | _, _, .label h => congrArg (· + _ + _) (RunReplaced.inlinesNotes_eq hnotes h)
  | .mk _ _ :: _, _, .tail h => congrArg (_ + ·) (ItemsReplaced.itemsNotes_eq hnotes h)

theorem TermsReplaced.termsNotes_eq (hnotes : blocksNotes new = blocksNotes old) :
    ∀ {items items' : List TermItem}, TermsReplaced s old new items items' →
      termsNotes items' = termsNotes items
  | _, _, .content h => congrArg (_ + · + _) (BlocksReplaced.blocksNotes_eq hnotes h)
  | _, _, .term h => congrArg (· + _ + _) (RunReplaced.inlinesNotes_eq hnotes h)
  | .mk _ _ :: _, _, .tail h => congrArg (_ + ·) (TermsReplaced.termsNotes_eq hnotes h)

theorem CellsReplaced.cellsNotes_eq (hnotes : blocksNotes new = blocksNotes old) :
    ∀ {cells cells' : List TableCell}, CellsReplaced s old new cells cells' →
      cellsNotes cells' = cellsNotes cells
  | _, _, .head h => congrArg (· + _) (BlocksReplaced.blocksNotes_eq hnotes h)
  | .mk _ _ _ _ :: _, _, .tail h => congrArg (_ + ·) (CellsReplaced.cellsNotes_eq hnotes h)

theorem RowsReplaced.rowsNotes_eq (hnotes : blocksNotes new = blocksNotes old) :
    ∀ {rows rows' : List (List TableCell)}, RowsReplaced s old new rows rows' →
      rowsNotes rows' = rowsNotes rows
  | _, _, .head h => congrArg (· + _) (CellsReplaced.cellsNotes_eq hnotes h)
  | _, _, .tail h => congrArg (_ + ·) (RowsReplaced.rowsNotes_eq hnotes h)

end

end notes

end Markup
