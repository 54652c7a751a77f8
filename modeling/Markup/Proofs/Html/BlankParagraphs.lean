import Markup.Proofs.Html.Exchange
import Markup.Proofs.Html.TagWalk

/-! # Blank paragraphs

A blank paragraph is written as nothing, and blocks on lines of their own drop what is nothing.  In
an item, a definition, a cell or a note, though, blocks are counted before that: a lone paragraph
there loses its tags, and it is written even if it is blank.  So a blank paragraph shows where it
stands alone and is not all ASCII, and where it takes away that some other paragraph was alone
(`blankShows`).

`render_blankParagraph_iff` says that it shows nowhere else, whatever the document around it is, and
`blankParagraph_loosens_item` is the item that gets its tags back. -/

namespace Markup

open Text

/-- Nothing is seen of a paragraph, even if it stands alone in an item: it is blank, and all of it
is ASCII. -/
def unseen (run : List Inline) : Bool := isBlankRun run && run.all Inline.vanishes

/-- Whether a blank paragraph shows that is put among the blocks. -/
def blankShows : Setting → List Block → List Inline → Bool
  | .tight, [], blank => !unseen blank
  | .tight, [.par content], _ => !unseen content
  | _, _, _ => false

namespace Html

section blank

variable {before after : List Block} {blank content : List Inline}

/-! ### Paragraphs without their tags -/

theorem exists_inlinesHtml_blank : ∀ {run : List Inline}, isBlankRun run = true →
    ∃ text, inlinesHtml run = (Pure.pure text : Render String)
  | [], _ => ⟨"", by rw [inlinesHtml]⟩
  | i :: rest, h => by
      unfold isBlankRun at h
      rw [List.all_cons, Bool.and_eq_true] at h
      have hblank : isBlankRun rest = true := h.2
      obtain ⟨text, hrest⟩ := exists_inlinesHtml_blank hblank
      cases i with
      | text s =>
          exact ⟨escape s ++ text, by rw [inlinesHtml, inlineHtml, pure_bind, hrest, pure_bind]⟩
      | _ => exact absurd h.1 Bool.false_ne_true

/-- What is written of a blank run is gone without the whitespace at its ends just if all of it is
ASCII. -/
theorem exists_stripped (h : isBlankRun blank = true) : ∃ text,
    inlinesHtml blank >>= (fun s => Pure.pure (strip s)) = (Pure.pure text : Render String) ∧
      text.isEmpty = unseen blank := by
  obtain ⟨s, hs⟩ := exists_inlinesHtml_blank h
  have hrun : inlinesHtml blank {} = .ok (s, {}) := by
    rw [hs]
    rfl
  refine ⟨strip s, by rw [hs, pure_bind], ?_⟩
  rw [isEmpty_strip, inlinesHtml_isBlank hrun, unseen, h, Bool.true_and]

/-- It makes a difference that a text is there, unless it is empty. -/
theorem differ_empty {text : String} : Differ (!text.isEmpty) "" text := by
  rw [Differ, Bool.not_eq_true', Bool.eq_false_iff, ne_eq, ne_eq, String.isEmpty_iff]

theorem Differ.symm {α : Type} {more : Bool} {a b : α} (h : Differ more a b) : Differ more b a :=
  ne_comm.trans h

/-- The tags of a paragraph make a difference. -/
theorem differ_tags (s : String) : Differ true s ("<p>" ++ s ++ "</p>") := by
  refine iff_of_true (fun heq => ?_) rfl
  have hlength := congrArg String.length heq
  simp only [String.length_append] at hlength
  have hopen : "<p>".length = 3 := by decide
  omega

/-! ### Blocks with a blank paragraph among them -/

/-- It has no notes. -/
theorem blocksNotes_insert (h : isBlankRun blank = true) (before after : List Block) :
    blocksNotes (before ++ .par blank :: after) = blocksNotes (before ++ after) := by
  induction before with
  | nil =>
      have hnone : inlinesNotes blank = 0 := (of_isBlankRun (p := Writable) h).1
      rw [List.nil_append, List.nil_append, blocksNotes, blockNotes, hnone, Nat.zero_add]
  | cons b before ih => rw [List.cons_append, List.cons_append, blocksNotes, blocksNotes, ih]

/-- It is dropped from blocks on lines of their own. -/
theorem blockParts_insert (h : isBlankRun blank = true) (before after : List Block) :
    blockParts (before ++ .par blank :: after) = blockParts (before ++ after) := by
  induction before with
  | nil =>
      rw [List.nil_append, List.nil_append, blockParts, blockHtml, if_pos h, pure_bind]
      exact bind_pure _
  | cons b before ih => rw [List.cons_append, List.cons_append, blockParts, blockParts, ih]

/-- It leaves no paragraph alone. -/
theorem isLone_insert (b : Block) (hne : before ++ after ≠ []) :
    isLone (before ++ b :: after) = false := by
  match before, after, hne with
  | [], c :: after, _ => exact isLone_cons_cons b c after
  | [c], after, _ => exact isLone_cons_cons c b after
  | c :: c' :: before, after, _ => exact isLone_cons_cons c c' _

/-- A single block on a line of its own. -/
theorem settingHtml_singleton (b : Block) : settingHtml .lines [b] = blockHtml b := by
  rw [settingHtml, blockParts_singleton, bind_assoc]
  have hline (here : String) : joinLines (if here.isEmpty then [] else [here]) = here := by
    split
    · next hempty => exact (String.isEmpty_iff.mp hempty).symm
    · exact String.intercalate_singleton
  simp only [pure_bind, hline]
  exact bind_pure _

/-- Among blocks it makes them stand on lines of their own. -/
theorem tightHtml_insert (h : isBlankRun blank = true) (hne : before ++ after ≠ []) :
    tightHtml (before ++ .par blank :: after) = settingHtml .lines (before ++ after) := by
  rw [tightHtml_of_not_isLone (isLone_insert _ hne), blockParts_insert h, settingHtml]

/-- A paragraph that stands alone no more. -/
theorem tightHtml_par_tracks (content : List Inline) :
    Tracks (Differ (!unseen content)) (tightHtml [.par content]) (blockHtml (.par content)) := by
  rw [tightHtml, blockHtml]
  cases hblank : isBlankRun content with
  | true =>
      obtain ⟨text, hstripped, hempty⟩ := exists_stripped hblank
      rw [hstripped, ← hempty]
      exact .pure differ_empty.symm
  | false =>
      have hseen : unseen content = false := by rw [unseen, hblank, Bool.false_and]
      rw [hseen, if_neg Bool.false_ne_true]
      exact (.refl (fun _ => rfl) _ : Tracks Eq (inlinesHtml content) (inlinesHtml content)).map
        fun s t hst => hst ▸ differ_tags (strip s)

theorem blankShows_of_not_isLone {bs : List Block} (hne : bs ≠ []) (h : isLone bs = false)
    (blank : List Inline) : blankShows .tight bs blank = false := by
  match bs, hne with
  | [b], _ =>
      cases b with
      | par _ => cases h
      | _ => rfl
  | b :: c :: rest, _ => cases b <;> rfl

/-- Blocks that had no blank paragraph among them. -/
theorem tightHtml_lines_tracks {bs : List Block} (hne : bs ≠ []) (blank : List Inline) :
    Tracks (Differ (blankShows .tight bs blank)) (tightHtml bs) (settingHtml .lines bs) := by
  cases hlone : isLone bs with
  | true =>
      obtain ⟨content, rfl | rfl, -⟩ := tightHtml_of_isLone hlone
      · rw [settingHtml_singleton]
        exact tightHtml_par_tracks content
      · rw [settingHtml_singleton, tightHtml, blockHtml]
        exact .refl (Differ.refl rfl) _
  | false =>
      rw [tightHtml_of_not_isLone hlone]
      exact .refl (Differ.refl (blankShows_of_not_isLone hne hlone blank)) _

/-- A blank paragraph where there was nothing. -/
theorem tightHtml_alone_tracks (h : isBlankRun blank = true) :
    Tracks (Differ (!unseen blank)) (tightHtml []) (tightHtml [.par blank]) := by
  obtain ⟨text, hstripped, hempty⟩ := exists_stripped h
  rw [tightHtml, tightHtml, hstripped, ← hempty]
  exact .pure differ_empty

/-- Blocks with a blank paragraph among them or without it. -/
theorem exchange_blank (h : isBlankRun blank = true) (s : Setting) (before after : List Block) :
    Exchange s (before ++ after) (before ++ .par blank :: after)
      (blankShows s (before ++ after) blank) := by
  refine ⟨blocksNotes_insert h before after, ?_⟩
  cases s with
  | lines =>
      rw [settingHtml, settingHtml, blockParts_insert h]
      exact .refl (Differ.refl rfl) _
  | tight =>
      change Tracks _ (tightHtml _) (tightHtml _)
      by_cases hnil : before ++ after = []
      · obtain ⟨rfl, rfl⟩ := List.append_eq_nil_iff.mp hnil
        exact tightHtml_alone_tracks h
      · rw [tightHtml_insert h hnil]
        exact tightHtml_lines_tracks hnil blank

/-- **Where a blank paragraph shows**: put anywhere into any list of blocks of a document that can
be written, a blank paragraph leaves what is written as it is, unless the list is that of an item,
the definition of a term, a cell or a note, and there is nothing else in it and the paragraph is not
all ASCII, or there is one paragraph in it, which is not blank or not all ASCII. -/
theorem render_blankParagraph_iff {s : Setting} {d d' : Document} {o : Options} {html : String}
    (hblank : isBlankRun blank = true)
    (h : d.Replaced s (before ++ after) (before ++ .par blank :: after) d')
    (hrender : render o d = .ok html) :
    ∃ html', render o d' = .ok html' ∧
      (html' = html ↔ blankShows s (before ++ after) blank = false) := by
  obtain ⟨html', hrender', hdiffer⟩ := (exchange_blank hblank s before after).render h hrender
  have hshows : html' ≠ html ↔ blankShows s (before ++ after) blank = true := hdiffer
  exact ⟨html', hrender', by rw [← Bool.not_eq_true, ← hshows, ne_eq, not_not]⟩

end blank

/-- A page with a note that has a definition with these blocks. -/
def annotated (bs : List Block) : Document where
  content := [.blockQuote [.par [.text "a", .footnote [.termList [.mk [] bs]]]]]

/-- Space behind a rule in a definition in a note. -/
theorem render_blankParagraph_iff_note :
    ∃ html, render {} (annotated [.rule]) = .ok html ∧
      render {} (annotated [.rule, .par [.text " \n"]]) = .ok html := by
  have hplaced : (annotated [.rule]).Replaced .tight (([.rule] : List Block) ++ [])
      (([.rule] : List Block) ++ [.par [.text " \n"]]) (annotated [.rule, .par [.text " \n"]]) :=
    ⟨rfl, .inside (.head (.blockQuote (.inside (.head (.par (.tail (.head (.footnote
      (.inside (.head (.termList (.content .here))))))))))))⟩
  have hformed : (annotated [.rule]).WellFormed := by
    simp [annotated, Document.WellFormed, blocksMadeOf, Block.MadeOf, Inline.MadeOf, inlinesMadeOf,
      termsMadeOf, Writable]
  obtain ⟨html, hrender, -⟩ := exists_flow_render {} hformed
  obtain ⟨html', hrender', hsame⟩ := render_blankParagraph_iff (by decide) hplaced hrender
  have hunseen : html' = html := hsame.mpr rfl
  exact ⟨html, hrender, hunseen ▸ hrender'⟩

/-- A list with an item of these blocks. -/
def itemized (bs : List Block) : Document where
  content := [.list .unordered [.mk bs none]]

/-- An empty paragraph behind the paragraph of an item gives that one its tags back. -/
theorem blankParagraph_loosens_item :
    ¬ ∀ (o : Options) (d d' : Document) (html : String) (s : Setting) (before after : List Block)
      (blank : List Inline), isBlankRun blank = true →
        d.Replaced s (before ++ after) (before ++ .par blank :: after) d' →
        render o d = .ok html → render o d' = .ok html := by
  intro h
  have hplaced : (itemized [.par [.text "a"]]).Replaced .tight [.par [.text "a"]]
      [.par [.text "a"], .par []] (itemized [.par [.text "a"], .par []]) :=
    ⟨rfl, .inside (.head (.list (.content .here)))⟩
  have htight : render {} (itemized [.par [.text "a"]]) = .ok "<ul>\n<li>a</li>\n</ul>\n" := rfl
  have hloose : render {} (itemized [.par [.text "a"], .par []]) =
      .ok "<ul>\n<li><p>a</p></li>\n</ul>\n" := rfl
  have hsame := h {} _ _ _ .tight [.par [.text "a"]] [] [] (by decide) hplaced htight
  rw [hloose] at hsame
  exact absurd (Except.ok.inj hsame) (by decide)

/-- A paragraph of a no-break space, alone in an item, is there to be seen. -/
example : render {} (itemized [.par [.text "\u00a0"]]) = .ok "<ul>\n<li>&#xA0;</li>\n</ul>\n" := by
  cbv

end Html

end Markup
