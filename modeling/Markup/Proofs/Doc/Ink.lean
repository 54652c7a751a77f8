import Markup.Library
import Markup.Proofs.Doc.Leaves
import Markup.Proofs.Doc.MadeOf

/-! # Text without its blanks

`ink` is what is left of a text when all whitespace is deleted.  What is blank has no ink, so
dropping blank text at the end of an item, and blank paragraphs between items, leaves the ink of a
list as it was (`collectItems_collects`, `collectTerms_collects`). -/

namespace Markup

/-- The characters of a text that are not whitespace. -/
def ink (cs : List Char) : List Char := cs.filter (!Unicode.isWhitespace ·)

@[simp] theorem ink_append (cs ds : List Char) : ink (cs ++ ds) = ink cs ++ ink ds :=
  List.filter_append cs ds

/-- The ink of leaves in order. -/
def leavesInk (leaves : List Leaf) : List Char := ink (leaves.flatMap Leaf.chars)

@[simp] theorem leavesInk_append (first rest : List Leaf) :
    leavesInk (first ++ rest) = leavesInk first ++ leavesInk rest := by
  simp [leavesInk]

/-! ### Blanks have no ink -/

theorem ink_of_isBlank {s : String} (h : Text.isBlank s = true) : ink s.toList = [] := by
  unfold ink
  rw [List.filter_eq_nil_iff]
  intro c hc
  have hblank := List.all_eq_true.mp h c hc
  simp [hblank]

theorem Inline.ink_of_isBlank {i : Inline} (h : i.isBlank = true) : leavesInk i.leaves = [] := by
  cases i with
  | text s =>
      have hs := Markup.ink_of_isBlank h
      simpa [Inline.leaves, leavesInk, Leaf.chars] using hs
  | _ => cases h

theorem ink_of_isBlankRun : ∀ {run : List Inline}, isBlankRun run = true →
    leavesInk (inlinesLeaves run) = []
  | [], _ => rfl
  | i :: rest, h => by
      have hboth := List.all_cons.symm.trans h
      rw [Bool.and_eq_true] at hboth
      rw [inlinesLeaves, leavesInk_append, Inline.ink_of_isBlank hboth.1,
        ink_of_isBlankRun hboth.2, List.append_nil]

theorem Block.ink_of_isBlank {b : Block} (h : b.isBlank = true) : leavesInk b.leaves = [] := by
  cases b with
  | par content | plain content => exact ink_of_isBlankRun h
  | _ => cases h

/-! ### Dropping blanks -/

/-- A run is its trimmed self with a blank run behind it. -/
theorem exists_trimRun_append (run : List Inline) :
    ∃ blank, run = trimRun run ++ blank ∧ isBlankRun blank = true := by
  refine ⟨(run.reverse.takeWhile Inline.isBlank).reverse, ?_, ?_⟩
  · rw [trimRun, ← List.reverse_append, List.takeWhile_append_dropWhile, List.reverse_reverse]
  · rw [isBlankRun, List.all_reverse]
    exact List.all_takeWhile

theorem trimRun_ink (run : List Inline) :
    leavesInk (inlinesLeaves (trimRun run)) = leavesInk (inlinesLeaves run) := by
  obtain ⟨blank, hrun, hblank⟩ := exists_trimRun_append run
  have e := congrArg (fun run => leavesInk (inlinesLeaves run)) hrun
  simp only [inlinesLeaves_append, leavesInk_append, ink_of_isBlankRun hblank,
    List.append_nil] at e
  exact e.symm

theorem trimRun_madeOf {p : BlockKind → Prop} {run : List Inline} (h : inlinesMadeOf p run) :
    inlinesMadeOf p (trimRun run) := by
  obtain ⟨blank, hrun, -⟩ := exists_trimRun_append run
  rw [hrun] at h
  exact (inlinesMadeOf_append.mp h).1

theorem Block.trimEnd_ink (b : Block) : leavesInk b.trimEnd.leaves = leavesInk b.leaves := by
  cases b with
  | par content | plain content => exact trimRun_ink content
  | _ => rfl

theorem Block.trimEnd_madeOf {p : BlockKind → Prop} {b : Block} (h : b.MadeOf p) :
    b.trimEnd.MadeOf p := by
  cases b with
  | par content | plain content => exact ⟨h.1, trimRun_madeOf h.2⟩
  | _ => exact h

theorem trimBlocks_ink : ∀ bs : List Block,
    leavesInk (blocksLeaves (trimBlocks bs)) = leavesInk (blocksLeaves bs)
  | [] => rfl
  | [b] => by simpa [trimBlocks, blocksLeaves] using b.trimEnd_ink
  | b :: c :: rest => by
      have hrest := trimBlocks_ink (c :: rest)
      rw [blocksLeaves, leavesInk_append, ← hrest]
      simp [trimBlocks, blocksLeaves]

theorem trimBlocks_madeOf {p : BlockKind → Prop} : ∀ {bs : List Block}, blocksMadeOf p bs →
    blocksMadeOf p (trimBlocks bs)
  | [], h => h
  | [_], h => ⟨Block.trimEnd_madeOf h.1, trivial⟩
  | _ :: c :: rest, h => by
      have hrest : blocksMadeOf p (trimBlocks (c :: rest)) := trimBlocks_madeOf h.2
      exact ⟨h.1, hrest⟩

/-! ### Collections -/

theorem trimItems_ink : ∀ items : List ListItem,
    leavesInk (itemsLeaves (items.map fun i => .mk (trimBlocks i.content) i.label)) =
      leavesInk (itemsLeaves items)
  | [] => rfl
  | .mk content label :: rest => by
      have hrest := trimItems_ink rest
      change leavesInk (optionLeaves [] label ++ blocksLeaves (trimBlocks content) ++
        itemsLeaves _) = leavesInk (optionLeaves [] label ++ blocksLeaves content ++ _)
      simp only [leavesInk_append, trimBlocks_ink, hrest]

theorem trimItems_madeOf {p : BlockKind → Prop} {items : List ListItem} (h : itemsMadeOf p items) :
    itemsMadeOf p (items.map fun i => .mk (trimBlocks i.content) i.label) := by
  induction items with
  | nil => exact h
  | cons item rest ih =>
      cases item with
      | mk content label => exact ⟨trimBlocks_madeOf h.1, h.2.1, ih h.2.2⟩

theorem trimTerms_ink : ∀ items : List TermItem,
    leavesInk (termsLeaves (items.map fun i => .mk i.term (trimBlocks i.content))) =
      leavesInk (termsLeaves items)
  | [] => rfl
  | .mk term content :: rest => by
      have hrest := trimTerms_ink rest
      change leavesInk (inlinesLeaves term ++ blocksLeaves (trimBlocks content) ++
        termsLeaves _) = leavesInk (inlinesLeaves term ++ blocksLeaves content ++ _)
      simp only [leavesInk_append, trimBlocks_ink, hrest]

theorem trimTerms_madeOf {p : BlockKind → Prop} {items : List TermItem} (h : termsMadeOf p items) :
    termsMadeOf p (items.map fun i => .mk i.term (trimBlocks i.content)) := by
  induction items with
  | nil => exact h
  | cons item rest ih =>
      cases item with
      | mk term content => exact ⟨h.1, trimBlocks_madeOf h.2.1, ih h.2.2⟩

/-- Collecting from blocks succeeds with their ink, or fails for the one reason `fault`. -/
def Collects {α : Type} (madeOf : α → Prop) (leaves : α → List Leaf) (fault : ShapeFault)
    (bs : List Block) : Except CommandCause α → Prop
  | .ok items => madeOf items ∧ leavesInk (leaves items) = leavesInk (blocksLeaves bs)
  | .error cause => cause = .shape fault

section collects

variable {α : Type} {madeOf : α → Prop} {leaves : α → List Leaf} {fault : ShapeFault} {b : Block}
  {bs : List Block} {outcome : Except CommandCause α}

/-- A blank block adds nothing to a collection. -/
theorem Collects.blank (h : Collects madeOf leaves fault bs outcome) (hb : b.isBlank = true) :
    Collects madeOf leaves fault (b :: bs) outcome := by
  match outcome, h with
  | .error _, h => exact h
  | .ok _, h =>
      refine ⟨h.1, ?_⟩
      rw [h.2, blocksLeaves, leavesInk_append, Block.ink_of_isBlank hb, List.nil_append]

/-- A block that holds items adds them in front. -/
theorem Collects.map {f : α → α} (h : Collects madeOf leaves fault bs outcome)
    (hmade : ∀ items, madeOf items → madeOf (f items))
    (hink : ∀ items,
      leavesInk (leaves (f items)) = leavesInk b.leaves ++ leavesInk (leaves items)) :
    Collects madeOf leaves fault (b :: bs) (outcome.map f) := by
  match outcome, h with
  | .error _, h => exact h
  | .ok items, h =>
      refine ⟨hmade items h.1, ?_⟩
      rw [hink, h.2, blocksLeaves, leavesInk_append]

end collects

theorem collectItems_collects {p : BlockKind → Prop} {bs : List Block} (h : blocksMadeOf p bs) :
    Collects (itemsMadeOf p) itemsLeaves .notItem bs (collectItems bs) := by
  induction bs with
  | nil => exact ⟨trivial, rfl⟩
  | cons b rest ih =>
      have hrest := ih h.2
      unfold collectItems
      split
      · next heq => cases heq
      · next kind items tail heq =>
        cases heq
        refine hrest.map (fun more hmore => ?_) (fun more => ?_)
        · exact itemsMadeOf_append.mpr ⟨trimItems_madeOf h.1.2, hmore⟩
        · rw [itemsLeaves_append, leavesInk_append, trimItems_ink, Block.leaves]
      · next other tail _ heq =>
        cases heq
        split
        · next hblank => exact hrest.blank hblank
        · rfl

theorem collectTerms_collects {p : BlockKind → Prop} {bs : List Block} (h : blocksMadeOf p bs) :
    Collects (termsMadeOf p) termsLeaves .notTerm bs (collectTerms bs) := by
  induction bs with
  | nil => exact ⟨trivial, rfl⟩
  | cons b rest ih =>
      have hrest := ih h.2
      unfold collectTerms
      split
      · next heq => cases heq
      · next items tail heq =>
        cases heq
        refine hrest.map (fun more hmore => ?_) (fun more => ?_)
        · exact termsMadeOf_append.mpr ⟨trimTerms_madeOf h.1.2, hmore⟩
        · rw [termsLeaves_append, leavesInk_append, trimTerms_ink, Block.leaves]
      · next other tail _ heq =>
        cases heq
        split
        · next hblank => exact hrest.blank hblank
        · rfl

end Markup
