import Markup.Proofs.Compile.MarkupFree
import Markup.Proofs.Doc.Tables
import Markup.Proofs.Html.Tracks

/-! # Space that is drained into blocks

Space at the end of blocks is mostly lost when they are written: paragraphs, headings and captions
are stripped, and blank paragraphs are left out.  It shows in a block of code, in a list without
items, which gets one, and in a table that has no cell to end with; `blocksHideSpace` looks for
these where a run is drained to.

Writing the blocks with and without the space goes the same way (`Tracks`), and what is written
is the same if the space is hidden, and longer if it is not (`absorbBlocks_tracks`).  Where the end
of the blocks is trimmed afterwards, as for items of lists, this stays so (`trimBlocks_tracks`):
trimming does not reach into the blocks that show the space. -/

namespace Markup

open Text Unicode

/-! ### Space -/

/-- Spaces, tabs and what ends a line. -/
def spacingChars : List Char := [' ', '\t', '\r', '\n']

/-- A text of nothing but space. -/
def IsSpacing (s : String) : Prop := Html.Every (· ∈ spacingChars) s.toList

instance : DecidablePred IsSpacing := fun s =>
  inferInstanceAs (Decidable (Html.Every (· ∈ spacingChars) s.toList))

namespace IsSpacing

variable {s : String}

theorem isBlank (h : IsSpacing s) : Text.isBlank s = true := by
  have hchars : Html.Every (isWhitespace · = true) spacingChars := by decide
  exact List.all_eq_true.mpr fun c hc => hchars c (h c hc)

theorem escape_eq (h : IsSpacing s) : Html.escape s = s := by
  have hchars : Html.Every (fun c => Html.SafeChar c ∧ c ≠ '&') spacingChars := by decide
  exact Html.escape_eq_self fun c hc => hchars c (h c hc)

end IsSpacing

namespace Text

/-- Characters that are dropped anyway may follow. -/
theorem trim_append {p : Char → Bool} {cs ds : List Char} (h : ds.all p = true) :
    trim p (cs ++ ds) = trim p cs := by
  have hnil : ds.dropWhile p = [] := List.dropWhile_eq_nil_iff.mpr (List.all_eq_true.mp h)
  have hend : trimEnd p ds = [] := by
    have hreverse : ds.reverse.dropWhile p = [] :=
      List.dropWhile_eq_nil_iff.mpr fun c hc => List.all_eq_true.mp h c (List.mem_reverse.mp hc)
    rw [trimEnd, hreverse, List.reverse_nil]
  unfold trim
  rw [List.dropWhile_append]
  split
  · next hall =>
    rw [hnil, List.isEmpty_iff.mp hall]
  · rw [Html.trimEnd_append, hend]
    rfl

theorem strip_append {s t : String} (h : isBlank t = true) : strip (s ++ t) = strip s := by
  rw [strip, String.toList_append, trim_append h, strip]

theorem strip_of_isBlank {s : String} (h : isBlank s = true) : strip s = "" := by
  have hstrip : strip ("" ++ s) = strip "" := strip_append h
  rw [String.empty_append] at hstrip
  exact hstrip

end Text

theorem Html.slugify_append {s t : String} (h : isBlank t = true) :
    slugify (s ++ t) = slugify s := by
  rw [slugify, String.toList_append, trim_append h, slugify]

theorem isBlankRun_append (xs ys : List Inline) :
    isBlankRun (xs ++ ys) = (isBlankRun xs && isBlankRun ys) := List.all_append

theorem IsSpacing.isBlankRun_texts {texts : List String} (h : IsSpacing (String.join texts)) :
    isBlankRun (texts.map .text) = true :=
  (Html.isBlankRun_texts texts).trans h.isBlank

theorem trimRun_append {xs ys : List Inline} (h : isBlankRun ys = true) :
    trimRun (xs ++ ys) = trimRun xs := by
  have hall : ∀ i ∈ ys.reverse, i.isBlank = true := fun i hi =>
    List.all_eq_true.mp h i (List.mem_reverse.mp hi)
  rw [trimRun, List.reverse_append, List.dropWhile_append_of_pos hall, trimRun]

theorem plainText_append (xs ys : List Inline) :
    plainText (xs ++ ys) = plainText xs ++ plainText ys := by
  induction xs with
  | nil => simp [plainText]
  | cons i xs ih => rw [List.cons_append, plainText, ih, plainText, String.append_assoc]

theorem plainText_texts (texts : List String) :
    plainText (texts.map .text) = String.join texts := by
  induction texts with
  | nil => rfl
  | cons t rest ih => rw [List.map_cons, plainText, ih, Inline.plainText, String.join_cons]

/-! ### Where space is hidden -/

mutual

/-- Space that is drained into the block does not show. -/
def Block.hidesSpace : Block → Bool
  | .codeBlock .. => false
  | .blockQuote content | .tagged content _ | .defn _ content => blocksHideSpace content
  | .list _ items => itemsHideSpace items
  | .termList items => termsHideSpace items
  | .table _ rows => rows.getLast?.any (!·.isEmpty)
  | .plain _ | .par _ | .heading .. | .figure .. | .rule | .mathBlock _ | .foreign _ => true

/-- Space that is drained into the last of the blocks does not show. -/
def blocksHideSpace : List Block → Bool
  | [] => true
  | b :: rest =>
    match rest with
    | [] => b.hidesSpace
    | _ :: _ => blocksHideSpace rest

/-- Space that is drained into the last of the items does not show; there has to be one. -/
def itemsHideSpace : List ListItem → Bool
  | [] => false
  | .mk content _ :: rest =>
    match rest with
    | [] => blocksHideSpace content
    | _ :: _ => itemsHideSpace rest

/-- Space that is drained into the last of the definitions does not show. -/
def termsHideSpace : List TermItem → Bool
  | [] => false
  | .mk _ content :: rest =>
    match rest with
    | [] => blocksHideSpace content
    | _ :: _ => termsHideSpace rest

end

/-- A part that can take a run is put back where it was. -/
theorem Absorbed.exists_rebuild {α β : Type} {a : Absorbed α} (f : α → β)
    (h : ∃ part log, a = .ok (part, log)) : ∃ tree log, a.rebuild f = .ok (tree, log) := by
  obtain ⟨part, log, rfl⟩ := h
  exact ⟨f part, log, rfl⟩

mutual

/-- Blocks that hide space can take it. -/
theorem exists_absorbBlocks (run : List Inline) : ∀ {bs : List Block}, blocksHideSpace bs = true →
    ∃ bs' log, absorbBlocks run bs = .ok (bs', log)
  | [], _ => ⟨_, _, by rw [absorbBlocks]⟩
  | [b], h => by
      rw [absorbBlocks]
      exact exists_absorbBlock run h
  | b :: c :: rest, h => by
      rw [absorbBlocks]
      have hrest : blocksHideSpace (c :: rest) = true := h
      exact Absorbed.exists_rebuild _ (exists_absorbBlocks run hrest)

theorem exists_absorbBlock (run : List Inline) : ∀ {b : Block}, b.hidesSpace = true →
    ∃ bs' log, absorbBlock run b = .ok (bs', log)
  | .plain _, _ | .par _, _ | .codeBlock .., _ | .heading .., _ | .figure .., _ | .rule, _
  | .mathBlock _, _ | .foreign _, _ => ⟨_, _, by rw [absorbBlock]⟩
  | .blockQuote content, h | .tagged content _, h | .defn _ content, h => by
      rw [absorbBlock]
      have hcontent : blocksHideSpace content = true := h
      exact Absorbed.exists_rebuild _ (exists_absorbBlocks run hcontent)
  | .list _ items, h => by
      rw [absorbBlock]
      have hitems : itemsHideSpace items = true := h
      exact Absorbed.exists_rebuild _ (exists_absorbItems run hitems)
  | .termList items, h => by
      rw [absorbBlock]
      have hitems : termsHideSpace items = true := h
      exact Absorbed.exists_rebuild _ (exists_absorbTerms run hitems)
  | .table columns rows, _ => by
      obtain ⟨told, htable⟩ := absorbTable_eq run columns rows
      rw [absorbBlock]
      exact Absorbed.exists_rebuild _ ⟨_, _, htable⟩

theorem exists_absorbItems (run : List Inline) : ∀ {items : List ListItem},
    itemsHideSpace items = true → ∃ items' log, absorbItems run items = .ok (items', log)
  | [], _ => ⟨_, _, by rw [absorbItems]⟩
  | [.mk content _], h => by
      rw [absorbItems]
      have hcontent : blocksHideSpace content = true := h
      exact Absorbed.exists_rebuild _ (exists_absorbBlocks run hcontent)
  | .mk _ _ :: item :: rest, h => by
      rw [absorbItems]
      have hrest : itemsHideSpace (item :: rest) = true := h
      exact Absorbed.exists_rebuild _ (exists_absorbItems run hrest)

theorem exists_absorbTerms (run : List Inline) : ∀ {items : List TermItem},
    termsHideSpace items = true → ∃ items' log, absorbTerms run items = .ok (items', log)
  | [.mk _ content], h => by
      rw [absorbTerms]
      have hcontent : blocksHideSpace content = true := h
      exact Absorbed.exists_rebuild _ (exists_absorbBlocks run hcontent)
  | .mk _ _ :: item :: rest, h => by
      rw [absorbTerms]
      have hrest : termsHideSpace (item :: rest) = true := h
      exact Absorbed.exists_rebuild _ (exists_absorbTerms run hrest)

end

theorem exists_trimBlocks_cons (b : Block) (rest : List Block) :
    ∃ c more, trimBlocks (b :: rest) = c :: more := by
  unfold trimBlocks
  split <;> exact ⟨_, _, rfl⟩

/-- Trimming changes no more than the text of a paragraph. -/
theorem blocksHideSpace_trimBlocks (bs : List Block) :
    blocksHideSpace (trimBlocks bs) = blocksHideSpace bs := by
  induction bs with
  | nil => rfl
  | cons b rest ih =>
      cases rest with
      | nil => cases b <;> rfl
      | cons c rest =>
          obtain ⟨d, more, hmore⟩ := exists_trimBlocks_cons c rest
          change blocksHideSpace (b :: trimBlocks (c :: rest)) = blocksHideSpace (c :: rest)
          rw [hmore, blocksHideSpace, ← hmore, ih]

namespace Html

/-! ### Paragraphs -/

section inlines

variable {texts : List String}

/-- Space behind inline content is written as it is. -/
theorem inlinesHtml_tracks (hspace : IsSpacing (String.join texts)) (content : List Inline) :
    Tracks (fun s t => t = s ++ String.join texts) (inlinesHtml content)
      (inlinesHtml (content ++ texts.map .text)) := by
  induction content with
  | nil =>
      intro w
      refine .inr ⟨"", String.join texts, w, rfl, ?_, String.empty_append.symm⟩
      rw [List.nil_append, inlinesHtml_texts, hspace.escape_eq]
  | cons i rest ih =>
      rw [List.cons_append, inlinesHtml, inlinesHtml]
      refine .behind fun here => ih.map fun s t hst => ?_
      rw [hst, String.append_assoc]

/-- Space at the end is stripped off. -/
theorem stripped_tracks (hspace : IsSpacing (String.join texts)) (content : List Inline) :
    Tracks Eq (inlinesHtml content >>= fun s => Pure.pure (strip s))
      (inlinesHtml (content ++ texts.map .text) >>= fun s => Pure.pure (strip s)) := by
  refine (inlinesHtml_tracks hspace content).map fun s t hst => ?_
  rw [hst, strip_append hspace.isBlank]

theorem isBlankRun_append_texts (hspace : IsSpacing (String.join texts)) (content : List Inline) :
    isBlankRun (content ++ texts.map .text) = isBlankRun content := by
  rw [isBlankRun_append, hspace.isBlankRun_texts, Bool.and_true]

/-- A blank paragraph is left out. -/
theorem blockParts_blank {content : List Inline} (h : isBlankRun content = true) :
    blockParts [.par content] = Pure.pure [] := by
  rw [blockParts_singleton, blockHtml, if_pos h]
  rfl

end inlines

/-- A lone paragraph stays one when a run is drained into it, and nothing else becomes one but
nothing at all. -/
theorem isLone_of_absorbBlocks {run : List Inline} {bs bs' : List Block} {log : List LogEntry}
    (h : absorbBlocks run bs = .ok (bs', log)) (hne : bs ≠ []) : isLone bs' = isLone bs := by
  match bs, h, hne with
  | [b], h, _ =>
      rw [absorbBlocks] at h
      cases b with
      | blockQuote _ | tagged _ _ | defn _ _ | list _ _ | termList _ =>
          rw [absorbBlock] at h
          obtain ⟨part, -, rfl⟩ := Absorbed.exists_of_rebuild h
          rfl
      | table columns rows =>
          obtain ⟨told, htable⟩ := absorbTable_eq run columns rows
          rw [absorbBlock, htable] at h
          cases h
          rfl
      | _ =>
          rw [absorbBlock] at h
          cases h
          rfl
  | b :: c :: rest, h, _ =>
      rw [absorbBlocks] at h
      obtain ⟨part, hpart, rfl⟩ := Absorbed.exists_of_rebuild h
      obtain ⟨d, more, rfl⟩ := List.exists_cons_of_ne_nil (ne_nil_of_absorbBlocks hpart)
      cases b <;> rfl

/-! ### The tree -/

section tree

variable {texts : List String} {more : Bool}

/-- A lone paragraph of space is empty. -/
theorem tightHtml_spacing (hspace : IsSpacing (String.join texts)) (w : Writer) :
    tightHtml [.par (texts.map .text)] w = .ok ("", w) := by
  rw [tightHtml]
  change (inlinesHtml (texts.map .text) w >>= fun r => .ok (strip r.1, r.2)) = _
  rw [inlinesHtml_texts, hspace.escape_eq]
  change Except.ok (strip (String.join texts), w) = _
  rw [strip_of_isBlank hspace.isBlank]

/-- Space in items goes the same way as space in blocks. -/
theorem tight_of_parts {bs bs' : List Block} {log : List LogEntry}
    (hspace : IsSpacing (String.join texts))
    (h : absorbBlocks (texts.map .text) bs = .ok (bs', log))
    (hparts : Tracks (BlocksGrown (!blocksHideSpace bs)) (blockParts bs) (blockParts bs')) :
    Tracks (Grown (!blocksHideSpace bs)) (tightHtml bs) (tightHtml bs') := by
  by_cases hnil : bs = []
  · subst hnil
    rw [absorbBlocks] at h
    cases h
    exact fun w => .inr ⟨"", "", w, by rw [tightHtml]; rfl, tightHtml_spacing hspace w, rfl⟩
  have hlone := isLone_of_absorbBlocks h hnil
  cases hbs : isLone bs with
  | false =>
      rw [tightHtml_of_not_isLone hbs, tightHtml_of_not_isLone (hlone.trans hbs)]
      exact hparts.map fun _ _ hlines => hlines.joinLines
  | true =>
      obtain ⟨content, hform, htight⟩ := tightHtml_of_isLone hbs
      have hhides : blocksHideSpace bs = true ∧ ∃ content',
          content' = content ++ texts.map .text ∧
            tightHtml bs' = inlinesHtml content' >>= fun s => Pure.pure (strip s) := by
        rcases hform with rfl | rfl
        · rw [absorbBlocks, absorbBlock] at h
          cases h
          exact ⟨rfl, _, rfl, by rw [tightHtml]⟩
        · rw [absorbBlocks, absorbBlock] at h
          cases h
          exact ⟨rfl, _, rfl, by rw [tightHtml]⟩
      obtain ⟨hhides, content', rfl, htight'⟩ := hhides
      rw [hhides, htight, htight']
      exact (stripped_tracks hspace content).mono fun _ _ heq => heq.symm

theorem rowParts_append : ∀ rows rows' : List (List TableCell),
    rowParts (rows ++ rows') = (do
      let ps ← rowParts rows
      let qs ← rowParts rows'
      return ps ++ qs)
  | [], rows' => by
      rw [rowParts]
      simp
  | row :: rows, rows' => by
      rw [List.cons_append, rowParts, rowParts, rowParts_append rows rows']
      simp

theorem blockHtml_par_tracks (hspace : IsSpacing (String.join texts)) (content : List Inline) :
    Tracks (Grown false) (blockHtml (.par content))
      (blockHtml (.par (content ++ texts.map .text))) := by
  rw [blockHtml, blockHtml, isBlankRun_append_texts hspace]
  split
  · exact .pure rfl
  · refine (inlinesHtml_tracks hspace content).map fun s t hst => ?_
    rw [hst, strip_append hspace.isBlank]
    rfl

theorem blockHtml_codeBlock_tracks (hspace : IsSpacing (String.join texts))
    (hsome : String.join texts ≠ "") (language : Option String) (content : List Inline) :
    Tracks (Grown true) (blockHtml (.codeBlock language content))
      (blockHtml (.codeBlock language (content ++ texts.map .text))) := by
  rw [blockHtml, blockHtml]
  refine (inlinesHtml_tracks hspace content).map fun s t hst => ?_
  have hpos : 0 < (String.join texts).length := by
    rw [Nat.pos_iff_ne_zero]
    exact fun hzero => hsome (String.length_eq_zero_iff.mp hzero)
  have hopen : "<pre><code".length = 10 := rfl
  rw [hst]
  simp only [Grown, String.length_append, hopen]
  omega

theorem blockHtml_heading_tracks (hspace : IsSpacing (String.join texts)) (level : Int)
    (text : List Inline) : Tracks (Grown false) (blockHtml (.heading level text))
      (blockHtml (.heading level (text ++ texts.map .text))) := by
  have hslug : takeSlug (plainText (text ++ texts.map .text)) = takeSlug (plainText text) := by
    rw [plainText_append, plainText_texts]
    unfold takeSlug
    rw [slugify_append hspace.isBlank]
  rw [blockHtml, blockHtml, hslug]
  split
  · refine .behind fun slug => ?_
    refine (inlinesHtml_tracks hspace text).map fun s t hst => ?_
    rw [hst, strip_append hspace.isBlank]
    rfl
  · exact fun w => .inl ⟨_, rfl, rfl⟩

theorem blockHtml_figure_tracks (hspace : IsSpacing (String.join texts)) (content : List Block)
    (caption : List Inline) : Tracks (Grown false) (blockHtml (.figure content caption))
      (blockHtml (.figure content (caption ++ texts.map .text))) := by
  rw [blockHtml, blockHtml]
  refine (inlinesHtml_tracks hspace caption).bind fun s t hst => ?_
  rw [hst, strip_append hspace.isBlank]
  exact .refl Grown.same _

/-- A row of one cell of space. -/
theorem rowParts_spacing (texts : List String) (w : Writer) : ∃ html,
    rowParts [[.mk [.plain (texts.map .text)] none 1 1]] w = .ok ([html], w) := by
  have hcell : tightHtml [.plain (texts.map .text)] w =
      .ok (strip (escape (String.join texts)), w) := by
    rw [tightHtml]
    change (inlinesHtml (texts.map .text) w >>= fun r => .ok (strip r.1, r.2)) = _
    rw [inlinesHtml_texts]
    rfl
  simp only [rowParts, cellsHtml]
  change ∃ html, ((tightHtml [.plain (texts.map .text)] w >>= fun r => _) >>= fun r => _) = _
  rw [hcell]
  exact ⟨_, rfl⟩

/-- A table that takes a run gets one more row. -/
theorem blockHtml_table_tracks (texts : List String) (columns : List TableColumn)
    (rows : List (List TableCell)) (h : (Block.table columns rows).hidesSpace = false) :
    Tracks (Grown true) (blockHtml (.table columns rows))
      (blockHtml (.table columns (rowsWith (texts.map .text) rows))) := by
  have hrows : rowsWith (texts.map .text) rows =
      rows ++ [[.mk [.plain (texts.map .text)] none 1 1]] := by
    rw [Block.hidesSpace] at h
    unfold rowsWith
    rcases hlast : rows.getLast? with _ | _ | ⟨cell, cells⟩
    · rfl
    · rfl
    · rw [hlast] at h
      cases h
  have hgrown : Tracks (PartsGrown true) (rowParts rows >>= Pure.pure)
      (rowParts (rows ++ [[.mk [.plain (texts.map .text)] none 1 1]])) := by
    rw [rowParts_append]
    refine .behind fun ps w => ?_
    obtain ⟨html, hrow⟩ := rowParts_spacing texts w
    refine .inr ⟨ps, ps ++ [html], w, rfl, ?_, ?_⟩
    · change (rowParts _ w >>= fun r => .ok (ps ++ r.1, r.2)) = _
      rw [hrow]
      rfl
    · change linesLength ps < linesLength (ps ++ [html])
      rw [linesLength_append, linesLength_cons]
      omega
  rw [bind_pure] at hgrown
  rw [hrows, blockHtml, blockHtml]
  exact hgrown.map fun _ _ hparts => hparts.lines (by decide) _

theorem rowsWith_of_hidesSpace {run : List Inline} {columns : List TableColumn}
    {rows : List (List TableCell)} (h : (Block.table columns rows).hidesSpace = true) :
    rowsWith run rows = rows := by
  rw [Block.hidesSpace] at h
  unfold rowsWith
  rcases hlast : rows.getLast? with _ | _ | ⟨cell, cells⟩
  · rw [hlast] at h
    cases h
  · rw [hlast] at h
    cases h
  · rfl

/-- A blank paragraph behind a block is left out. -/
theorem blockParts_behind_tracks (hspace : IsSpacing (String.join texts)) (b : Block) :
    Tracks (BlocksGrown false) (blockParts [b]) (blockParts [b, .par (texts.map .text)]) := by
  rw [blockParts.eq_2 b [], blockParts.eq_2 b [_], blockParts_blank hspace.isBlankRun_texts,
    blockParts_nil]
  exact .refl BlocksGrown.same _

end tree

mutual

/-- **Space that is drained into blocks is not written, or it makes what is written longer.** -/
theorem absorbBlocks_tracks {texts : List String} (hspace : IsSpacing (String.join texts)) :
    ∀ (bs : List Block) {bs' : List Block} {log : List LogEntry},
      absorbBlocks (texts.map .text) bs = .ok (bs', log) →
      (blocksHideSpace bs = true ∨ String.join texts ≠ "") →
        Tracks (BlocksGrown (!blocksHideSpace bs)) (blockParts bs) (blockParts bs')
  | [], _, _, h, _ => by
      rw [absorbBlocks] at h
      cases h
      rw [blockParts_blank hspace.isBlankRun_texts, blockParts_nil]
      exact .pure (.same [])
  | [b], _, _, h, hsome => by
      rw [absorbBlocks] at h
      exact absorbBlock_tracks hspace b h hsome
  | b :: c :: rest, _, _, h, hsome => by
      rw [absorbBlocks] at h
      obtain ⟨part, hpart, rfl⟩ := Absorbed.exists_of_rebuild h
      have hrest := absorbBlocks_tracks hspace (c :: rest) hpart hsome
      rw [blockParts, blockParts]
      exact .behind fun here => hrest.map fun _ _ hparts => hparts.consUnlessEmpty here

theorem absorbBlock_tracks {texts : List String} (hspace : IsSpacing (String.join texts)) :
    ∀ (b : Block) {bs' : List Block} {log : List LogEntry},
      absorbBlock (texts.map .text) b = .ok (bs', log) →
      (b.hidesSpace = true ∨ String.join texts ≠ "") →
        Tracks (BlocksGrown (!b.hidesSpace)) (blockParts [b]) (blockParts bs')
  | .plain content, _, _, h, _ => by
      rw [absorbBlock] at h
      cases h
      refine .single ?_
      rw [blockHtml, blockHtml]
      exact (stripped_tracks hspace content).mono fun _ _ => Grown.of_eq
  | .par content, _, _, h, _ => by
      rw [absorbBlock] at h
      cases h
      exact .single (blockHtml_par_tracks hspace content)
  | .codeBlock language content, _, _, h, hsome => by
      rw [absorbBlock] at h
      cases h
      have hne := hsome.resolve_left Bool.false_ne_true
      exact .single (blockHtml_codeBlock_tracks hspace hne language content)
  | .heading level text, _, _, h, _ => by
      rw [absorbBlock] at h
      cases h
      exact .single (blockHtml_heading_tracks hspace level text)
  | .figure content caption, _, _, h, _ => by
      rw [absorbBlock] at h
      cases h
      exact .single (blockHtml_figure_tracks hspace content caption)
  | .blockQuote content, _, _, h, hsome => by
      rw [absorbBlock] at h
      obtain ⟨part, hpart, rfl⟩ := Absorbed.exists_of_rebuild h
      refine .single ?_
      rw [blockHtml, blockHtml]
      exact (absorbBlocks_tracks hspace content hpart hsome).within _ _
  | .tagged content metadata, _, _, h, hsome => by
      rw [absorbBlock] at h
      obtain ⟨part, hpart, rfl⟩ := Absorbed.exists_of_rebuild h
      refine .single ?_
      rw [blockHtml, blockHtml]
      exact (absorbBlocks_tracks hspace content hpart hsome).within _ _
  | .defn kind content, _, _, h, hsome => by
      rw [absorbBlock] at h
      obtain ⟨part, hpart, rfl⟩ := Absorbed.exists_of_rebuild h
      refine .single ?_
      rw [blockHtml, blockHtml]
      exact (absorbBlocks_tracks hspace content hpart hsome).within _ _
  | .list kind items, _, _, h, hsome => by
      rw [absorbBlock] at h
      obtain ⟨part, hpart, rfl⟩ := Absorbed.exists_of_rebuild h
      refine .single ?_
      rw [blockHtml, blockHtml]
      exact (absorbItems_tracks hspace items hpart hsome).map fun _ _ hparts =>
        hparts.lines (by cases kind <;> decide) _
  | .termList items, _, _, h, hsome => by
      rw [absorbBlock] at h
      obtain ⟨part, hpart, rfl⟩ := Absorbed.exists_of_rebuild h
      refine .single ?_
      rw [blockHtml, blockHtml]
      exact (absorbTerms_tracks hspace items hpart hsome).map fun _ _ hparts =>
        hparts.lines (by decide) _
  | .table columns rows, _, _, h, _ => by
      obtain ⟨told, htable⟩ := absorbTable_eq (texts.map .text) columns rows
      rw [absorbBlock, htable] at h
      cases h
      cases hhides : (Block.table columns rows).hidesSpace with
      | false => exact .single (blockHtml_table_tracks texts columns rows hhides)
      | true =>
          rw [rowsWith_of_hidesSpace hhides]
          exact .single (.refl Grown.same _)
  | .rule, _, _, h, _ => by
      rw [absorbBlock] at h
      cases h
      exact blockParts_behind_tracks hspace .rule
  | .mathBlock tex, _, _, h, _ => by
      rw [absorbBlock] at h
      cases h
      exact blockParts_behind_tracks hspace (.mathBlock tex)
  | .foreign value, _, _, h, _ => by
      rw [absorbBlock] at h
      cases h
      exact .single (.refl Grown.same _)

theorem absorbItems_tracks {texts : List String} (hspace : IsSpacing (String.join texts)) :
    ∀ (items : List ListItem) {items' : List ListItem} {log : List LogEntry},
      absorbItems (texts.map .text) items = .ok (items', log) →
      (itemsHideSpace items = true ∨ String.join texts ≠ "") →
        Tracks (PartsGrown (!itemsHideSpace items)) (itemParts items) (itemParts items')
  | [], _, _, h, _ => by
      -- An item is made for the space, and it is written though it is empty.
      rw [absorbItems] at h
      cases h
      have hgrown : PartsGrown true [] ["<li></li>"] :=
        (by decide : linesLength [] < linesLength ["<li></li>"])
      refine fun w => .inr ⟨[], ["<li></li>"], w, by rw [itemParts]; rfl, ?_, hgrown⟩
      rw [itemParts, itemParts, labelHtml, pure_bind]
      change (tightHtml [.par (texts.map .text)] w >>= fun r =>
        .ok (["<li>" ++ "" ++ r.1 ++ "</li>"], r.2)) = _
      rw [tightHtml_spacing hspace]
      rfl
  | [.mk content label], _, _, h, hsome => by
      rw [absorbItems] at h
      obtain ⟨part, hpart, rfl⟩ := Absorbed.exists_of_rebuild h
      have hparts := absorbBlocks_tracks hspace content hpart hsome
      have htight := tight_of_parts hspace hpart hparts
      have hnone : Tracks (PartsGrown false) (itemParts []) (itemParts []) := .refl .same _
      have hitem := itemParts_cons_tracks label htight hnone
      rwa [Bool.or_false] at hitem
  | .mk content label :: item :: rest, _, _, h, hsome => by
      rw [absorbItems] at h
      obtain ⟨part, hpart, rfl⟩ := Absorbed.exists_of_rebuild h
      have hrest := absorbItems_tracks hspace (item :: rest) hpart hsome
      have hfirst : Tracks (Grown false) (tightHtml content) (tightHtml content) :=
        .refl .same _
      have hitems := itemParts_cons_tracks label hfirst hrest
      rwa [Bool.false_or] at hitems

theorem absorbTerms_tracks {texts : List String} (hspace : IsSpacing (String.join texts)) :
    ∀ (items : List TermItem) {items' : List TermItem} {log : List LogEntry},
      absorbTerms (texts.map .text) items = .ok (items', log) →
      (termsHideSpace items = true ∨ String.join texts ≠ "") →
        Tracks (PartsGrown (!termsHideSpace items)) (termParts items) (termParts items')
  | [], _, _, h, _ => by
      rw [absorbTerms] at h
      cases h
  | [.mk term content], _, _, h, hsome => by
      rw [absorbTerms] at h
      obtain ⟨part, hpart, rfl⟩ := Absorbed.exists_of_rebuild h
      have hparts := absorbBlocks_tracks hspace content hpart hsome
      have htight := tight_of_parts hspace hpart hparts
      have hnone : Tracks (PartsGrown false) (termParts []) (termParts []) := .refl .same _
      have hitem := termParts_cons_tracks term htight hnone
      rwa [Bool.or_false] at hitem
  | .mk term content :: item :: rest, _, _, h, hsome => by
      rw [absorbTerms] at h
      obtain ⟨part, hpart, rfl⟩ := Absorbed.exists_of_rebuild h
      have hrest := absorbTerms_tracks hspace (item :: rest) hpart hsome
      have hfirst : Tracks (Grown false) (tightHtml content) (tightHtml content) :=
        .refl .same _
      have hitems := termParts_cons_tracks term hfirst hrest
      rwa [Bool.false_or] at hitems

end

theorem tightHtml_tracks {texts : List String} (hspace : IsSpacing (String.join texts))
    {bs bs' : List Block} {log : List LogEntry}
    (h : absorbBlocks (texts.map .text) bs = .ok (bs', log))
    (hsome : blocksHideSpace bs = true ∨ String.join texts ≠ "") :
    Tracks (Grown (!blocksHideSpace bs)) (tightHtml bs) (tightHtml bs') :=
  tight_of_parts hspace h (absorbBlocks_tracks hspace bs h hsome)

/-! ### Blank ends are trimmed -/

section trimming

variable {run : List Inline}

/-- A blank run that is drained into a block is trimmed off again, or there is nothing to trim. -/
theorem absorbBlock_trimEnd (hblank : isBlankRun run = true) {b : Block} {bs' : List Block}
    {log : List LogEntry} (h : absorbBlock run b = .ok (bs', log)) :
    absorbBlock [] b.trimEnd = .ok (trimBlocks bs', []) ∧ b.trimEnd.hidesSpace = true ∨
      b.trimEnd = b ∧ trimBlocks bs' = bs' := by
  have hrun (content : List Inline) : trimRun (content ++ run) = trimRun content :=
    trimRun_append hblank
  have hnone : trimRun run = [] := hrun []
  cases b with
  | par content | plain content =>
      rw [absorbBlock] at h
      cases h
      exact .inl ⟨by simp [Block.trimEnd, absorbBlock, trimBlocks, hrun], rfl⟩
  | rule | mathBlock tex =>
      rw [absorbBlock] at h
      cases h
      exact .inl ⟨by simp [Block.trimEnd, absorbBlock, trimBlocks, hnone], rfl⟩
  | blockQuote _ | tagged _ _ | defn _ _ | list _ _ | termList _ =>
      rw [absorbBlock] at h
      obtain ⟨part, -, rfl⟩ := Absorbed.exists_of_rebuild h
      exact .inr ⟨rfl, rfl⟩
  | table columns rows =>
      obtain ⟨told, htable⟩ := absorbTable_eq run columns rows
      rw [absorbBlock, htable] at h
      cases h
      exact .inr ⟨rfl, rfl⟩
  | codeBlock _ _ | heading _ _ | figure _ _ | foreign _ =>
      rw [absorbBlock] at h
      cases h
      exact .inr ⟨rfl, rfl⟩

/-- Trimmed blocks are like blocks that a run was drained into: the whole run, or, where trimming
has taken it off again, the empty one. -/
theorem absorbBlocks_trimBlocks (hblank : isBlankRun run = true) :
    ∀ {bs bs' : List Block} {log : List LogEntry}, absorbBlocks run bs = .ok (bs', log) →
      ∃ run' log', absorbBlocks run' (trimBlocks bs) = .ok (trimBlocks bs', log') ∧
        (run' = run ∨ run' = [] ∧ blocksHideSpace (trimBlocks bs) = true)
  | [], _, _, h => by
      have hnone : trimRun ([] ++ run) = [] := trimRun_append hblank
      rw [absorbBlocks] at h
      cases h
      refine ⟨[], [], ?_, .inr ⟨rfl, rfl⟩⟩
      change Except.ok ([Block.par []], []) = .ok ([Block.par (trimRun ([] ++ run))], [])
      rw [hnone]
  | [b], bs', log, h => by
      rw [absorbBlocks] at h
      rcases absorbBlock_trimEnd hblank h with ⟨hempty, hhides⟩ | ⟨hb, hbs'⟩
      · exact ⟨[], [], hempty, .inr ⟨rfl, hhides⟩⟩
      · refine ⟨run, log, ?_, .inl rfl⟩
        change absorbBlocks run [b.trimEnd] = _
        rw [hb, hbs', absorbBlocks, h]
  | b :: c :: rest, _, _, h => by
      rw [absorbBlocks] at h
      obtain ⟨part, hpart, rfl⟩ := Absorbed.exists_of_rebuild h
      obtain ⟨run', log', htrim, hrun⟩ := absorbBlocks_trimBlocks hblank hpart
      obtain ⟨d, more, rfl⟩ := List.exists_cons_of_ne_nil (ne_nil_of_absorbBlocks hpart)
      have hcons (c : Block) (rest : List Block) :
          trimBlocks (b :: c :: rest) = b :: trimBlocks (c :: rest) := rfl
      obtain ⟨d', more', hmore⟩ := exists_trimBlocks_cons c rest
      refine ⟨run', log', ?_, ?_⟩
      · rw [hcons, hcons, hmore, absorbBlocks, ← hmore, htrim]
        rfl
      · rw [hcons, hmore, blocksHideSpace, ← hmore]
        exact hrun

end trimming

/-- **Space in an item is not written, or it makes what is written longer**, also when the end of
the item is trimmed. -/
theorem trimBlocks_tracks {texts : List String} (hspace : IsSpacing (String.join texts))
    (hsome : String.join texts ≠ "") {bs bs' : List Block} {log : List LogEntry}
    (h : absorbBlocks (texts.map .text) bs = .ok (bs', log)) :
    Tracks (Grown (!blocksHideSpace (trimBlocks bs))) (tightHtml (trimBlocks bs))
      (tightHtml (trimBlocks bs')) := by
  obtain ⟨run', log', htrim, rfl | ⟨rfl, hhides⟩⟩ :=
    absorbBlocks_trimBlocks hspace.isBlankRun_texts h
  · exact tightHtml_tracks hspace htrim (.inr hsome)
  · have hnone : IsSpacing (String.join []) := by decide
    have hempty : absorbBlocks (([] : List String).map .text) (trimBlocks bs) =
        .ok (trimBlocks bs', log') := htrim
    exact tightHtml_tracks hnone hempty (.inl hhides)

end Html

end Markup
