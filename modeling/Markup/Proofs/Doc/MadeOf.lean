import Markup.Doc

/-! # What a tree is made of

`Block.kind` is what a block is apart from its content, and `blocksMadeOf p` says of a tree that
every block in it, at any depth, is of a kind that `p` allows, and that no value stands out of
place in it.  Documents that can be written are those made of writable kinds
(`Document.WellFormed`): any block at all, headings only of the six levels.  The kinds that the
standard commands make (`Standard`) are among them. -/

namespace Markup

/-- What a block is apart from its content. -/
inductive BlockKind where
  | plain
  | par
  | codeBlock
  | blockQuote
  | tagged
  | list
  | termList
  | heading (level : Int)
  | rule
  | table
  | figure
  | defn
  | mathBlock
deriving DecidableEq, Repr

mutual

/-- Every block inside is of an allowed kind. -/
def Inline.MadeOf (p : BlockKind → Prop) : Inline → Prop
  | .styled _ content | .quote _ content => inlinesMadeOf p content
  | .link _ content _ _ => optionMadeOf p content
  | .footnote content => blocksMadeOf p content
  | .text _ | .code .. | .space | .math _ => True
  | .foreign _ => False

/-- Every block inside a run is of an allowed kind. -/
def inlinesMadeOf (p : BlockKind → Prop) : List Inline → Prop
  | [] => True
  | i :: rest => i.MadeOf p ∧ inlinesMadeOf p rest

/-- Every block inside a run that may be missing is of an allowed kind. -/
def optionMadeOf (p : BlockKind → Prop) : Option (List Inline) → Prop
  | none => True
  | some content => inlinesMadeOf p content

/-- The block and every block inside it are of allowed kinds. -/
def Block.MadeOf (p : BlockKind → Prop) : Block → Prop
  | .plain content => p .plain ∧ inlinesMadeOf p content
  | .par content => p .par ∧ inlinesMadeOf p content
  | .codeBlock _ content => p .codeBlock ∧ inlinesMadeOf p content
  | .blockQuote content => p .blockQuote ∧ blocksMadeOf p content
  | .tagged content _ => p .tagged ∧ blocksMadeOf p content
  | .list _ items => p .list ∧ itemsMadeOf p items
  | .termList items => p .termList ∧ termsMadeOf p items
  | .heading level text => p (.heading level) ∧ inlinesMadeOf p text
  | .rule => p .rule
  | .table _ rows => p .table ∧ rowsMadeOf p rows
  | .figure content caption => p .figure ∧ blocksMadeOf p content ∧ inlinesMadeOf p caption
  | .defn _ content => p .defn ∧ blocksMadeOf p content
  | .mathBlock _ => p .mathBlock
  | .foreign _ => False

/-- All blocks, and those inside them, are of allowed kinds. -/
def blocksMadeOf (p : BlockKind → Prop) : List Block → Prop
  | [] => True
  | b :: rest => b.MadeOf p ∧ blocksMadeOf p rest

/-- The blocks of all items are of allowed kinds. -/
def itemsMadeOf (p : BlockKind → Prop) : List ListItem → Prop
  | [] => True
  | .mk content label :: rest =>
    blocksMadeOf p content ∧ optionMadeOf p label ∧ itemsMadeOf p rest

/-- The blocks of all terms and definitions are of allowed kinds. -/
def termsMadeOf (p : BlockKind → Prop) : List TermItem → Prop
  | [] => True
  | .mk term content :: rest => inlinesMadeOf p term ∧ blocksMadeOf p content ∧ termsMadeOf p rest

/-- The blocks of all cells are of allowed kinds. -/
def cellsMadeOf (p : BlockKind → Prop) : List TableCell → Prop
  | [] => True
  | .mk content _ _ _ :: rest => blocksMadeOf p content ∧ cellsMadeOf p rest

/-- The blocks of all rows are of allowed kinds. -/
def rowsMadeOf (p : BlockKind → Prop) : List (List TableCell) → Prop
  | [] => True
  | row :: rest => cellsMadeOf p row ∧ rowsMadeOf p rest

end

/-! ### Putting parts together -/

section append

variable {p : BlockKind → Prop}

theorem inlinesMadeOf_append : ∀ {run rest : List Inline},
    inlinesMadeOf p (run ++ rest) ↔ inlinesMadeOf p run ∧ inlinesMadeOf p rest
  | [], _ => by simp [inlinesMadeOf]
  | _ :: _, _ => by simp [inlinesMadeOf, inlinesMadeOf_append, and_assoc]

theorem blocksMadeOf_append : ∀ {bs rest : List Block},
    blocksMadeOf p (bs ++ rest) ↔ blocksMadeOf p bs ∧ blocksMadeOf p rest
  | [], _ => by simp [blocksMadeOf]
  | _ :: _, _ => by simp [blocksMadeOf, blocksMadeOf_append, and_assoc]

theorem itemsMadeOf_append : ∀ {items rest : List ListItem},
    itemsMadeOf p (items ++ rest) ↔ itemsMadeOf p items ∧ itemsMadeOf p rest
  | [], _ => by simp [itemsMadeOf]
  | .mk _ _ :: _, _ => by simp [itemsMadeOf, itemsMadeOf_append, and_assoc]

theorem termsMadeOf_append : ∀ {items rest : List TermItem},
    termsMadeOf p (items ++ rest) ↔ termsMadeOf p items ∧ termsMadeOf p rest
  | [], _ => by simp [termsMadeOf]
  | .mk _ _ :: _, _ => by simp [termsMadeOf, termsMadeOf_append, and_assoc]

theorem rowsMadeOf_append : ∀ {rows rest : List (List TableCell)},
    rowsMadeOf p (rows ++ rest) ↔ rowsMadeOf p rows ∧ rowsMadeOf p rest
  | [], _ => by simp [rowsMadeOf]
  | _ :: _, _ => by simp [rowsMadeOf, rowsMadeOf_append, and_assoc]

end append

/-! ### Fewer kinds among more -/

section mono

variable {p q : BlockKind → Prop}

mutual

theorem Inline.MadeOf.mono (hpq : ∀ kind, p kind → q kind) : ∀ i : Inline, i.MadeOf p → i.MadeOf q
  | .styled _ content, h | .quote _ content, h => inlinesMadeOf_mono hpq content h
  | .link _ content _ _, h => optionMadeOf_mono hpq content h
  | .footnote content, h => blocksMadeOf_mono hpq content h
  | .text _, _ | .code .., _ | .space, _ | .math _, _ => trivial
  | .foreign _, h => h.elim

theorem inlinesMadeOf_mono (hpq : ∀ kind, p kind → q kind) :
    ∀ run : List Inline, inlinesMadeOf p run → inlinesMadeOf q run
  | [], _ => trivial
  | i :: rest, h => ⟨Inline.MadeOf.mono hpq i h.1, inlinesMadeOf_mono hpq rest h.2⟩

theorem optionMadeOf_mono (hpq : ∀ kind, p kind → q kind) :
    ∀ content : Option (List Inline), optionMadeOf p content → optionMadeOf q content
  | none, _ => trivial
  | some content, h => inlinesMadeOf_mono hpq content h

theorem Block.MadeOf.mono (hpq : ∀ kind, p kind → q kind) : ∀ b : Block, b.MadeOf p → b.MadeOf q
  | .plain content, h | .par content, h | .codeBlock _ content, h | .heading _ content, h =>
      ⟨hpq _ h.1, inlinesMadeOf_mono hpq content h.2⟩
  | .blockQuote content, h | .tagged content _, h | .defn _ content, h =>
      ⟨hpq _ h.1, blocksMadeOf_mono hpq content h.2⟩
  | .list _ items, h => ⟨hpq _ h.1, itemsMadeOf_mono hpq items h.2⟩
  | .termList items, h => ⟨hpq _ h.1, termsMadeOf_mono hpq items h.2⟩
  | .table _ rows, h => ⟨hpq _ h.1, rowsMadeOf_mono hpq rows h.2⟩
  | .figure content caption, h =>
      ⟨hpq _ h.1, blocksMadeOf_mono hpq content h.2.1, inlinesMadeOf_mono hpq caption h.2.2⟩
  | .rule, h | .mathBlock _, h => hpq _ h
  | .foreign _, h => h.elim

theorem blocksMadeOf_mono (hpq : ∀ kind, p kind → q kind) :
    ∀ bs : List Block, blocksMadeOf p bs → blocksMadeOf q bs
  | [], _ => trivial
  | b :: rest, h => ⟨Block.MadeOf.mono hpq b h.1, blocksMadeOf_mono hpq rest h.2⟩

theorem itemsMadeOf_mono (hpq : ∀ kind, p kind → q kind) :
    ∀ items : List ListItem, itemsMadeOf p items → itemsMadeOf q items
  | [], _ => trivial
  | .mk content label :: rest, h =>
      ⟨blocksMadeOf_mono hpq content h.1, optionMadeOf_mono hpq label h.2.1,
        itemsMadeOf_mono hpq rest h.2.2⟩

theorem termsMadeOf_mono (hpq : ∀ kind, p kind → q kind) :
    ∀ items : List TermItem, termsMadeOf p items → termsMadeOf q items
  | [], _ => trivial
  | .mk term content :: rest, h =>
      ⟨inlinesMadeOf_mono hpq term h.1, blocksMadeOf_mono hpq content h.2.1,
        termsMadeOf_mono hpq rest h.2.2⟩

theorem cellsMadeOf_mono (hpq : ∀ kind, p kind → q kind) :
    ∀ cells : List TableCell, cellsMadeOf p cells → cellsMadeOf q cells
  | [], _ => trivial
  | .mk content _ _ _ :: rest, h =>
      ⟨blocksMadeOf_mono hpq content h.1, cellsMadeOf_mono hpq rest h.2⟩

theorem rowsMadeOf_mono (hpq : ∀ kind, p kind → q kind) :
    ∀ rows : List (List TableCell), rowsMadeOf p rows → rowsMadeOf q rows
  | [], _ => trivial
  | row :: rest, h => ⟨cellsMadeOf_mono hpq row h.1, rowsMadeOf_mono hpq rest h.2⟩

end

end mono

/-! ### Kinds -/

/-- The kinds that can be written: all, with headings of the six levels. -/
def Writable : BlockKind → Prop
  | .heading level => 1 ≤ level ∧ level ≤ 6
  | _ => True

/-- The kinds that the standard commands make. -/
def Standard : BlockKind → Prop
  | .par | .codeBlock | .blockQuote | .list | .termList | .rule | .mathBlock => True
  | .heading level => 1 ≤ level ∧ level ≤ 3
  | .plain | .tagged | .table | .figure | .defn => False

theorem Standard.writable : ∀ kind : BlockKind, Standard kind → Writable kind
  | .heading _, h => ⟨h.1, Int.le_trans h.2 (by decide)⟩
  | .par, _ | .codeBlock, _ | .blockQuote, _ | .list, _ | .termList, _ | .rule, _ | .mathBlock, _ =>
      trivial

/-- A document that can be written. -/
def Document.WellFormed (d : Document) : Prop := blocksMadeOf Writable d.content

end Markup
