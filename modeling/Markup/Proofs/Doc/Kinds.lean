import Markup.Proofs.Doc.MadeOf

/-! # The kinds in a tree

`Document.kinds` lists what the blocks of a document are, at any depth and in the order in which
they are met: inside quotations, items, cells and figures, and inside the notes of a label, a term,
a caption or any other run.  A tree is made of allowed kinds if no value stands out of place in it
and all that are listed are allowed (`blocksMadeOf_iff`), so a document of nodes only can be written
exactly if its headings are of the six levels (`Document.wellFormed_iff`). -/

namespace Markup

mutual

/-- The kinds of all blocks inside. -/
def Inline.kinds : Inline → List BlockKind
  | .styled _ content | .quote _ content => inlinesKinds content
  | .link _ content _ _ => optionKinds content
  | .footnote content => blocksKinds content
  | .text _ | .code .. | .space | .math _ | .foreign _ => []

/-- The kinds of all blocks inside a run. -/
def inlinesKinds : List Inline → List BlockKind
  | [] => []
  | i :: rest => i.kinds ++ inlinesKinds rest

/-- The kinds of all blocks inside a run that may be missing. -/
def optionKinds : Option (List Inline) → List BlockKind
  | none => []
  | some content => inlinesKinds content

/-- The kinds of a block and of all blocks inside it. -/
def Block.kinds : Block → List BlockKind
  | .plain content => .plain :: inlinesKinds content
  | .par content => .par :: inlinesKinds content
  | .codeBlock _ content => .codeBlock :: inlinesKinds content
  | .blockQuote content => .blockQuote :: blocksKinds content
  | .tagged content _ => .tagged :: blocksKinds content
  | .list _ items => .list :: itemsKinds items
  | .termList items => .termList :: termsKinds items
  | .heading level text => .heading level :: inlinesKinds text
  | .rule => [.rule]
  | .table _ rows => .table :: rowsKinds rows
  | .figure content caption => .figure :: (blocksKinds content ++ inlinesKinds caption)
  | .defn _ content => .defn :: blocksKinds content
  | .mathBlock _ => [.mathBlock]
  | .foreign _ => []

/-- The kinds of blocks and of all blocks inside them. -/
def blocksKinds : List Block → List BlockKind
  | [] => []
  | b :: rest => b.kinds ++ blocksKinds rest

/-- The kinds of all blocks in the items of a list. -/
def itemsKinds : List ListItem → List BlockKind
  | [] => []
  | .mk content label :: rest => blocksKinds content ++ (optionKinds label ++ itemsKinds rest)

/-- The kinds of all blocks in terms and definitions. -/
def termsKinds : List TermItem → List BlockKind
  | [] => []
  | .mk term content :: rest => inlinesKinds term ++ (blocksKinds content ++ termsKinds rest)

/-- The kinds of all blocks in the cells of a row. -/
def cellsKinds : List TableCell → List BlockKind
  | [] => []
  | .mk content _ _ _ :: rest => blocksKinds content ++ cellsKinds rest

/-- The kinds of all blocks in the rows of a table. -/
def rowsKinds : List (List TableCell) → List BlockKind
  | [] => []
  | row :: rest => cellsKinds row ++ rowsKinds rest

end

/-- The kinds of all blocks of a document, at any depth. -/
def Document.kinds (d : Document) : List BlockKind := blocksKinds d.content

/-- A document of nodes only, with no value out of place. -/
def Document.WellTyped (d : Document) : Prop := blocksMadeOf (fun _ => True) d.content

/-! ### Allowed kinds -/

section iff

variable {p : BlockKind → Prop}

/-- Two parts, each with its own kinds. -/
theorem and_forall_append {a a' b b' : Prop} {ks ls : List BlockKind}
    (ha : a ↔ a' ∧ ∀ kind ∈ ks, p kind) (hb : b ↔ b' ∧ ∀ kind ∈ ls, p kind) :
    a ∧ b ↔ (a' ∧ b') ∧ ∀ kind ∈ ks ++ ls, p kind := by
  rw [ha, hb, List.forall_mem_append]
  exact and_and_and_comm

/-- A kind and what stands inside. -/
theorem and_forall_cons {b b' : Prop} {kind : BlockKind} {ks : List BlockKind}
    (hb : b ↔ b' ∧ ∀ kind ∈ ks, p kind) :
    p kind ∧ b ↔ (True ∧ b') ∧ ∀ k ∈ kind :: ks, p k := by
  rw [hb, List.forall_mem_cons, true_and]
  exact and_left_comm

theorem forall_nil {a : Prop} : a ↔ a ∧ ∀ kind ∈ ([] : List BlockKind), p kind := by simp

theorem forall_singleton {kind : BlockKind} : p kind ↔ True ∧ ∀ k ∈ [kind], p k := by simp

mutual

theorem Inline.madeOf_iff : ∀ i : Inline,
    i.MadeOf p ↔ i.MadeOf (fun _ => True) ∧ ∀ kind ∈ i.kinds, p kind
  | .styled _ content | .quote _ content => inlinesMadeOf_iff content
  | .link _ content _ _ => optionMadeOf_iff content
  | .footnote content => blocksMadeOf_iff content
  | .text _ | .code .. | .space | .math _ | .foreign _ => forall_nil

theorem inlinesMadeOf_iff : ∀ run : List Inline,
    inlinesMadeOf p run ↔ inlinesMadeOf (fun _ => True) run ∧ ∀ kind ∈ inlinesKinds run, p kind
  | [] => forall_nil
  | i :: rest => and_forall_append i.madeOf_iff (inlinesMadeOf_iff rest)

theorem optionMadeOf_iff : ∀ content : Option (List Inline),
    optionMadeOf p content ↔
      optionMadeOf (fun _ => True) content ∧ ∀ kind ∈ optionKinds content, p kind
  | none => forall_nil
  | some content => inlinesMadeOf_iff content

theorem Block.madeOf_iff : ∀ b : Block,
    b.MadeOf p ↔ b.MadeOf (fun _ => True) ∧ ∀ kind ∈ b.kinds, p kind
  | .plain content | .par content | .codeBlock _ content | .heading _ content =>
      and_forall_cons (inlinesMadeOf_iff content)
  | .blockQuote content | .tagged content _ | .defn _ content =>
      and_forall_cons (blocksMadeOf_iff content)
  | .list _ items => and_forall_cons (itemsMadeOf_iff items)
  | .termList items => and_forall_cons (termsMadeOf_iff items)
  | .table _ rows => and_forall_cons (rowsMadeOf_iff rows)
  | .figure content caption =>
      and_forall_cons (and_forall_append (blocksMadeOf_iff content) (inlinesMadeOf_iff caption))
  | .rule | .mathBlock _ => forall_singleton
  | .foreign _ => forall_nil

/-- Blocks are made of allowed kinds if all the kinds in them are allowed. -/
theorem blocksMadeOf_iff (bs : List Block) :
    blocksMadeOf p bs ↔ blocksMadeOf (fun _ => True) bs ∧ ∀ kind ∈ blocksKinds bs, p kind := by
  cases bs with
  | nil => exact forall_nil
  | cons b rest => exact and_forall_append b.madeOf_iff (blocksMadeOf_iff rest)

theorem itemsMadeOf_iff (items : List ListItem) :
    itemsMadeOf p items ↔
      itemsMadeOf (fun _ => True) items ∧ ∀ kind ∈ itemsKinds items, p kind := by
  cases items with
  | nil => exact forall_nil
  | cons item rest =>
      obtain ⟨content, label⟩ := item
      exact and_forall_append (blocksMadeOf_iff content)
        (and_forall_append (optionMadeOf_iff label) (itemsMadeOf_iff rest))

theorem termsMadeOf_iff (items : List TermItem) :
    termsMadeOf p items ↔
      termsMadeOf (fun _ => True) items ∧ ∀ kind ∈ termsKinds items, p kind := by
  cases items with
  | nil => exact forall_nil
  | cons item rest =>
      obtain ⟨term, content⟩ := item
      exact and_forall_append (inlinesMadeOf_iff term)
        (and_forall_append (blocksMadeOf_iff content) (termsMadeOf_iff rest))

theorem cellsMadeOf_iff : ∀ cells : List TableCell,
    cellsMadeOf p cells ↔ cellsMadeOf (fun _ => True) cells ∧ ∀ kind ∈ cellsKinds cells, p kind
  | [] => forall_nil
  | .mk content _ _ _ :: rest => and_forall_append (blocksMadeOf_iff content) (cellsMadeOf_iff rest)

theorem rowsMadeOf_iff : ∀ rows : List (List TableCell),
    rowsMadeOf p rows ↔ rowsMadeOf (fun _ => True) rows ∧ ∀ kind ∈ rowsKinds rows, p kind
  | [] => forall_nil
  | row :: rest => and_forall_append (cellsMadeOf_iff row) (rowsMadeOf_iff rest)

end

end iff

/-- Among the nodes, only headings can stand in the way of writing a document. -/
theorem Document.wellFormed_iff {d : Document} (h : d.WellTyped) :
    d.WellFormed ↔ ∀ level, .heading level ∈ d.kinds → 1 ≤ level ∧ level ≤ 6 := by
  unfold WellFormed
  rw [blocksMadeOf_iff]
  constructor
  · rintro ⟨-, hkinds⟩ level hmem
    exact hkinds _ hmem
  · intro hheadings
    refine ⟨h, fun kind hmem => ?_⟩
    cases kind with
    | heading level => exact hheadings level hmem
    | _ => trivial

end Markup
