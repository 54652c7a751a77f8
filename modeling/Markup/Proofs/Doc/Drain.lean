import Markup.Proofs.Doc.Leaves
import Markup.Proofs.Doc.MadeOf
import Markup.Proofs.Step

/-! # Draining keeps every leaf in its place

A run that is drained into blocks ends up behind everything that is there in document order,
however deep the block lies that takes it, unless a table with cells drops it and says so
(`absorbBlocks_absorbs`).  Draining makes no blocks but paragraphs, and text in the first cell of
a table, and it fails for one reason only.  So draining a builder
leaves its leaves (`Builder.leaves`) as they are, but for what a table drops (`drain_ensures`). -/

namespace Markup

/-! ### Draining into trees -/

/-- What draining a run does to the leaves of a tree: the leaves of the run come last, or a table
drops the run and says so. -/
def Drained (p : BlockKind → Prop) (run : List Inline) (before after : List Leaf)
    (log : List LogEntry) : Prop :=
  (log = [] ∧ after = before ++ inlinesLeaves run) ∨
    (p .table ∧ log = [.discarded run.length] ∧ after = before)

theorem Drained.behind {p : BlockKind → Prop} {run : List Inline} {before after : List Leaf}
    {log : List LogEntry} (first : List Leaf) (h : Drained p run before after log) :
    Drained p run (first ++ before) (first ++ after) log := by
  rcases h with ⟨hlog, hleaves⟩ | ⟨htable, hlog, hleaves⟩
  · exact .inl ⟨hlog, by rw [hleaves, List.append_assoc]⟩
  · exact .inr ⟨htable, hlog, by rw [hleaves]⟩

/-- A run that may be drained into a tree of kinds `p`. -/
structure Fits (p : BlockKind → Prop) (run : List Inline) : Prop where
  run : inlinesMadeOf p run
  par : p .par
  cell : p .table → p .plain

/-- Draining succeeds with a tree of kinds `p` and its leaves as they should be, or fails since a
list of terms is empty. -/
def Absorbs {α : Type} (p : BlockKind → Prop) (run : List Inline) (madeOf : α → Prop)
    (leaves : α → List Leaf) (before : List Leaf) : Absorbed α → Prop
  | .ok (tree, log) => madeOf tree ∧ Drained p run before (leaves tree) log
  | .error e => e = .emptyTermList

section absorb

variable {α β : Type} {p : BlockKind → Prop} {run : List Inline}

theorem Absorbs.ok {madeOf : α → Prop} {leaves : α → List Leaf} {before : List Leaf} {tree : α}
    (hmade : madeOf tree) (hleaves : leaves tree = before ++ inlinesLeaves run) :
    Absorbs p run madeOf leaves before (.ok (tree, [])) :=
  ⟨hmade, .inl ⟨rfl, hleaves⟩⟩

/-- A part that took the run, put back behind other leaves. -/
theorem Absorbs.rebuild {madeOf : α → Prop} {madeOf' : β → Prop} {leaves : α → List Leaf}
    {leaves' : β → List Leaf} {before : List Leaf} {f : α → β} {outcome : Absorbed α}
    (first : List Leaf) (h : Absorbs p run madeOf leaves before outcome)
    (hmade : ∀ tree, madeOf tree → madeOf' (f tree))
    (hleaves : ∀ tree, leaves' (f tree) = first ++ leaves tree) :
    Absorbs p run madeOf' leaves' (first ++ before) (outcome.rebuild f) := by
  match outcome, h with
  | .error _, h => exact h
  | .ok (tree, log), h =>
      refine ⟨hmade tree h.1, ?_⟩
      rw [hleaves]
      exact h.2.behind first

theorem absorbTable_absorbs (hfits : Fits p run) (columns : List TableColumn)
    {rows : List (List TableCell)} (htable : p .table) (hrows : rowsMadeOf p rows) :
    Absorbs p run (Block.MadeOf p) Block.leaves (rowsLeaves rows)
      (absorbTable run columns rows) := by
  unfold absorbTable
  split
  · exact ⟨⟨htable, hrows⟩, .inr ⟨htable, rfl, rfl⟩⟩
  · refine .ok ⟨htable, rowsMadeOf_append.mpr ⟨hrows, ?_⟩⟩ ?_
    · exact ⟨⟨⟨⟨hfits.cell htable, hfits.run⟩, trivial⟩, trivial⟩, trivial⟩
    · simp [Block.leaves, rowsLeaves, cellsLeaves, blocksLeaves]

end absorb

mutual

theorem absorbBlocks_absorbs {p : BlockKind → Prop} {run : List Inline} (hfits : Fits p run) :
    ∀ bs : List Block, blocksMadeOf p bs →
      Absorbs p run (blocksMadeOf p) blocksLeaves (blocksLeaves bs) (absorbBlocks run bs)
  | [], _ => .ok ⟨⟨hfits.par, hfits.run⟩, trivial⟩ (by simp [blocksLeaves, Block.leaves])
  | [b], h => by
      have hb := absorbBlock_absorbs hfits b h.1
      rw [blocksLeaves, blocksLeaves, List.append_nil]
      exact hb
  | b :: c :: rest, h => by
      have hrest := absorbBlocks_absorbs hfits (c :: rest) h.2
      rw [absorbBlocks]
      exact hrest.rebuild b.leaves (fun _ hmade => ⟨h.1, hmade⟩) (fun _ => rfl)

theorem absorbBlock_absorbs {p : BlockKind → Prop} {run : List Inline} (hfits : Fits p run) :
    ∀ b : Block, b.MadeOf p →
      Absorbs p run (blocksMadeOf p) blocksLeaves b.leaves (absorbBlock run b)
  | .plain content, h | .par content, h | .codeBlock _ content, h | .heading _ content, h =>
      .ok ⟨⟨h.1, inlinesMadeOf_append.mpr ⟨h.2, hfits.run⟩⟩, trivial⟩
        (by simp [blocksLeaves, Block.leaves])
  | .figure content caption, h =>
      .ok ⟨⟨h.1, h.2.1, inlinesMadeOf_append.mpr ⟨h.2.2, hfits.run⟩⟩, trivial⟩
        (by simp [blocksLeaves, Block.leaves])
  | .blockQuote content, h | .tagged content _, h | .defn _ content, h => by
      have hcontent := absorbBlocks_absorbs hfits content h.2
      rw [absorbBlock]
      exact hcontent.rebuild [] (fun _ hmade => ⟨⟨h.1, hmade⟩, trivial⟩)
        (fun _ => by simp [blocksLeaves, Block.leaves])
  | .list _ items, h => by
      have hitems := absorbItems_absorbs hfits items h.2
      rw [absorbBlock]
      exact hitems.rebuild [] (fun _ hmade => ⟨⟨h.1, hmade⟩, trivial⟩)
        (fun _ => by simp [blocksLeaves, Block.leaves])
  | .termList items, h => by
      have hitems := absorbTerms_absorbs hfits items h.2
      rw [absorbBlock]
      exact hitems.rebuild [] (fun _ hmade => ⟨⟨h.1, hmade⟩, trivial⟩)
        (fun _ => by simp [blocksLeaves, Block.leaves])
  | .table columns rows, h => by
      have htable := absorbTable_absorbs hfits columns h.1 h.2
      rw [absorbBlock]
      exact htable.rebuild [] (fun _ hmade => ⟨hmade, trivial⟩) (fun _ => by simp [blocksLeaves])
  | .rule, h | .mathBlock _, h =>
      .ok ⟨h, ⟨hfits.par, hfits.run⟩, trivial⟩ (by simp [blocksLeaves, Block.leaves])
  | .foreign _, h => h.elim

theorem absorbItems_absorbs {p : BlockKind → Prop} {run : List Inline} (hfits : Fits p run) :
    ∀ items : List ListItem, itemsMadeOf p items →
      Absorbs p run (itemsMadeOf p) itemsLeaves (itemsLeaves items) (absorbItems run items)
  | [], _ => .ok ⟨⟨⟨hfits.par, hfits.run⟩, trivial⟩, trivial, trivial⟩
      (by simp [itemsLeaves, optionLeaves, blocksLeaves, Block.leaves])
  | [.mk content label], h => by
      have hcontent := absorbBlocks_absorbs hfits content h.1
      rw [itemsLeaves, itemsLeaves, List.append_nil, absorbItems]
      exact hcontent.rebuild (optionLeaves [] label) (fun _ hmade => ⟨hmade, h.2⟩)
        (fun _ => by simp [itemsLeaves])
  | .mk content label :: item :: rest, h => by
      have hrest := absorbItems_absorbs hfits (item :: rest) h.2.2
      rw [absorbItems]
      exact hrest.rebuild (optionLeaves [] label ++ blocksLeaves content)
        (fun _ hmade => ⟨h.1, h.2.1, hmade⟩) (fun _ => rfl)

theorem absorbTerms_absorbs {p : BlockKind → Prop} {run : List Inline} (hfits : Fits p run) :
    ∀ items : List TermItem, termsMadeOf p items →
      Absorbs p run (termsMadeOf p) termsLeaves (termsLeaves items) (absorbTerms run items)
  | [], _ => rfl
  | [.mk term content], h => by
      have hcontent := absorbBlocks_absorbs hfits content h.2.1
      rw [termsLeaves, termsLeaves, List.append_nil, absorbTerms]
      exact hcontent.rebuild (inlinesLeaves term) (fun _ hmade => ⟨h.1, hmade, trivial⟩)
        (fun _ => by simp [termsLeaves])
  | .mk term content :: item :: rest, h => by
      have hrest := absorbTerms_absorbs hfits (item :: rest) h.2.2
      rw [absorbTerms]
      exact hrest.rebuild (inlinesLeaves term ++ blocksLeaves content)
        (fun _ hmade => ⟨h.1, h.2.1, hmade⟩) (fun _ => rfl)

end

/-! ### Builders -/

/-- All that a builder holds is of kinds `p`. -/
def Builder.MadeOf (p : BlockKind → Prop) (b : Builder) : Prop :=
  blocksMadeOf p b.blocks ∧ inlinesMadeOf p b.pending

/-- The leaves of a builder, those of the pending run last. -/
def Builder.leaves (b : Builder) : List Leaf := blocksLeaves b.blocks ++ inlinesLeaves b.pending

theorem drain_ensures {p : BlockKind → Prop} (hpar : p .par) (hcell : p .table → p .plain)
    {s : Session} (h : s.builder.MadeOf p) :
    Ensures Build.drain s
      (fun _ s' => s'.builder.MadeOf p ∧ s'.builder.pending = [] ∧ ∃ log, s'.log = s.log ++ log ∧
        Drained p s.builder.pending (blocksLeaves s.builder.blocks) s'.builder.leaves log)
      (· = .build .emptyTermList) := by
  refine .bind (.get ?_)
  dsimp only
  cases hpending : s.builder.pending.isEmpty with
  | true =>
      have e := List.isEmpty_iff.mp hpending
      refine .pure ⟨h, e, [], (List.append_nil _).symm, .inl ⟨rfl, ?_⟩⟩
      rfl
  | false =>
      have habsorb := absorbBlocks_absorbs ⟨h.2, hpar, hcell⟩ s.builder.blocks h.1
      refine .bind (.modify ?_)
      cases houtcome : absorbBlocks s.builder.pending s.builder.blocks with
      | error e =>
          rw [houtcome] at habsorb
          exact .throw (congrArg _ habsorb)
      | ok drained =>
          rw [houtcome] at habsorb
          refine .bind (.modify (.modify ?_))
          refine ⟨⟨habsorb.1, trivial⟩, rfl, drained.2, rfl, ?_⟩
          simpa [Builder.leaves, inlinesLeaves] using habsorb.2

/-- Where there are no tables, draining keeps all leaves. -/
theorem drain_ensures_leaves {p : BlockKind → Prop} (hpar : p .par) (htable : ¬ p .table)
    {s : Session} (h : s.builder.MadeOf p) :
    Ensures Build.drain s
      (fun _ s' => s'.builder.MadeOf p ∧ s'.builder.pending = [] ∧
        s'.builder.leaves = s.builder.leaves)
      (· = .build .emptyTermList) := by
  refine (drain_ensures hpar (fun h => (htable h).elim) h).mono (fun _ s' => ?_) fun _ he => he
  rintro ⟨hmade, hpending, log, -, ⟨-, hleaves⟩ | ⟨hp, -⟩⟩
  · exact ⟨hmade, hpending, hleaves⟩
  · exact (htable hp).elim

end Markup
