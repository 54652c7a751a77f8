import Markup.Proofs.Call.Segments
import Markup.Proofs.Compile
import Markup.Proofs.Library.Paragraphs

/-! # Documents without markup

A text without markup is evaluated to paragraphs, one for each of its segments, but for an empty
segment at its start (`MarkupFree.evaluateStandard_eq`): what is read of a segment is pending until
the next paragraph command, and goes to the empty paragraph that the command before it has left
(`Builder.Holds`).  Of these paragraphs those that are not blank are written
(`Html.render_textParagraphs`), and so the HTML of the text can be told from its segments alone
(`compile_markupFree`). -/

namespace Markup

open Text

/-! ### Evaluation -/

/-- A paragraph of texts. -/
def textParagraph (texts : List String) : Block := .par (texts.map .text)

/-- Paragraphs of texts, of which the first is left out if it has none. -/
def textParagraphs : List (List String) → List Block
  | [] :: rest => rest.map textParagraph
  | groups => groups.map textParagraph

theorem textParagraphs_concat {front : List (List String)} (hne : front ≠ []) (run : List String) :
    textParagraphs (front ++ [run]) = textParagraphs front ++ [textParagraph run] := by
  match front, hne with
  | [] :: rest, _ => exact List.map_append
  | (_ :: _) :: rest, _ => simp [textParagraphs]

/-- The builder has finished the groups of texts in front, and `run` is to follow them. -/
structure Builder.Holds (front : List (List String)) (run : List String) (b : Builder) : Prop where
  metadata : b.metadata = []
  first : front = [] → b.blocks = []
  later : front ≠ [] → b.blocks = textParagraphs front ++ [.par []]
  pending : b.pending = run.map .text

namespace Builder.Holds

variable {front : List (List String)} {run : List String} {b : Builder}

theorem empty : Holds [] [] {} where
  metadata := rfl
  first := fun _ => rfl
  later := fun hne => (hne rfl).elim
  pending := rfl

theorem pushText (h : Holds front run b) (t : String) :
    Holds front (run ++ [t]) { b with pending := b.pending ++ [.text t] } :=
  { h with pending := by rw [h.pending, List.map_append, List.map_singleton] }

theorem blocks_of_nil (h : Holds front [] b) : b.blocks = textParagraphs (front ++ [[]]) := by
  by_cases hfront : front = []
  · rw [h.first hfront, hfront]
    rfl
  · rw [h.later hfront, textParagraphs_concat hfront]
    rfl

theorem absorb (h : Holds front run b) (hne : run ≠ []) :
    absorbBlocks b.pending b.blocks = .ok (textParagraphs (front ++ [run]), []) := by
  by_cases hfront : front = []
  · obtain ⟨t, more, rfl⟩ := List.exists_cons_of_ne_nil hne
    rw [h.first hfront, h.pending, hfront, absorbBlocks]
    rfl
  · rw [h.later hfront, h.pending, absorbBlocks_emptyPar, textParagraphs_concat hfront]
    rfl

/-- Draining finishes the last group. -/
theorem drain (h : Holds front run b) (log : List LogEntry) :
    Build.drain ⟨b, log⟩ = (.ok (), ⟨⟨[], textParagraphs (front ++ [run]), []⟩, log⟩) := by
  rw [Build.drain_run]
  cases run with
  | nil =>
      obtain ⟨metadata, blocks, pending⟩ := b
      obtain rfl : metadata = [] := h.metadata
      obtain rfl : blocks = textParagraphs (front ++ [[]]) := h.blocks_of_nil
      obtain rfl : pending = [] := h.pending
      rfl
  | cons t run =>
      rw [if_neg (by rw [h.pending]; simp), h.absorb (List.cons_ne_nil t run), h.metadata]
      dsimp only
      rw [List.append_nil]

/-- A paragraph command finishes a group, and opens the next one. -/
theorem pushPar (h : Holds front run b) (log : List LogEntry) :
    ∃ b', Build.pushBlock (.par []) ⟨b, log⟩ = (.ok (), ⟨b', log⟩) ∧
      Holds (front ++ [run]) [] b' := by
  refine ⟨⟨[], textParagraphs (front ++ [run]) ++ [.par []], []⟩, ?_, ?_⟩
  · rw [pushBlock_run, h.drain]
  · refine ⟨rfl, fun hnil => ?_, fun _ => rfl, rfl⟩
    simp at hnil

end Builder.Holds

theorem runPiece_text_run (call : Call → Eval Unit) (span : Span) (b : Builder)
    (log : List LogEntry) : runPiece call (.text span) ⟨b, log⟩ =
      (.ok (), ⟨{ b with pending := b.pending ++ [.text span.fragment] }, log⟩) := by
  rw [runPiece, Eval.push, Eval.ofBuild, Build.push]
  rfl

section evaluation

variable {w : World Builtin} (hscope : w.scope = standardScope) (hroom : w.depth < w.maxDepth)
include hscope hroom

/-- Texts and paragraph commands are evaluated to their groups. -/
theorem runPieces_holds : ∀ {pieces : List Piece} {front : List (List String)} {run : List String}
    {b : Builder} (log : List LogEntry), (∀ p ∈ pieces, p.wording.Plain) → b.Holds front run →
      ∃ front' run' s, runPieces (w.call {} Builtin.library) pieces ⟨b, log⟩ = (.ok (), s) ∧
        s.builder.Holds front' run' ∧
        front' ++ [run'] = front ++ (textGroups (pieces.map Piece.wording)).modifyHead (run ++ ·)
  | [], front, run, b, log, _, hholds => by
      refine ⟨front, run, ⟨b, log⟩, rfl, hholds, ?_⟩
      simp [textGroups]
  | .text span :: rest, front, run, b, log, hplain, hholds => by
      obtain ⟨front', run', s, hrun, hheld, hgroups⟩ := runPieces_holds log
        (fun p hp => hplain p (List.mem_cons_of_mem _ hp)) (hholds.pushText span.fragment)
      refine ⟨front', run', s, ?_, hheld, ?_⟩
      · rw [runPieces_cons, bind_run, runPiece_text_run]
        exact hrun
      · rw [hgroups, List.map_cons, Piece.wording, textGroups, List.modifyHead_modifyHead]
        simp only [List.append_assoc, List.singleton_append, Function.comp_def]
  | .call c :: rest, front, run, b, log, hplain, hholds => by
      obtain ⟨hname, hargs⟩ := hplain (.call c) List.mem_cons_self
      obtain ⟨f, told, hcall⟩ :=
        parCall_run (by rw [hscope]; rfl) hroom hname (List.map_eq_nil_iff.mp hargs) ⟨b, log⟩
      obtain ⟨b', hpush, hheld'⟩ := hholds.pushPar (log ++ told)
      rw [adapt_run, hpush] at hcall
      obtain ⟨front', run', s, hrun, hheld, hgroups⟩ := runPieces_holds (log ++ told)
        (fun p hp => hplain p (List.mem_cons_of_mem _ hp)) hheld'
      refine ⟨front', run', s, ?_, hheld, ?_⟩
      · rw [runPieces_cons, bind_run, runPiece, hcall]
        exact hrun
      · rw [hgroups, List.map_cons, Piece.wording, textGroups, modifyHead_nil_append,
          List.modifyHead_cons, List.append_nil, List.append_assoc, List.singleton_append]

end evaluation

/-- **A text without markup is evaluated to the paragraphs of its segments.** -/
theorem MarkupFree.evaluateStandard_eq {source : Source} {maxDepth : Int}
    (h : MarkupFree source.text.toList) (hroom : 1 ≤ maxDepth) :
    ∃ texts, (evaluateStandard source maxDepth).1 = .ok ⟨[], textParagraphs texts⟩ ∧
      texts.map String.join = (segments source.text.toList).map String.ofList := by
  obtain ⟨pieces, hread, hplain, hsegments⟩ := h.exists_readMarkup
  obtain ⟨front, run, s, hrun, hheld, hgroups⟩ :=
    runPieces_holds (w := standardWorld source maxDepth) rfl (standardWorld_depth_lt source hroom)
      [] hplain Builder.Holds.empty
  refine ⟨front ++ [run], evaluateStandard_eq_ok_iff.mpr ⟨pieces, s, _, hread, hrun,
    intoDocument_eq_ok_iff.mpr ⟨hheld.drain s.log, rfl⟩⟩, ?_⟩
  rw [hgroups, List.nil_append, modifyHead_nil_append, hsegments]

/-! ### Writing -/

/-- A paragraph of a text. -/
def Html.paragraph (s : String) : String := "<p>" ++ strip (Html.escape s) ++ "</p>"

/-- The HTML of a text without markup: its segments that are not blank, as paragraphs. -/
def paragraphsHtml (text : String) : String :=
  let kept := ((segments text.toList).map String.ofList).filter fun s => !isBlank s
  if kept.isEmpty then "" else Html.joinLines (kept.map Html.paragraph) ++ "\n"

namespace Html

theorem inlinesHtml_texts (w : Writer) : ∀ texts : List String,
    inlinesHtml (texts.map .text) w = .ok (escape (String.join texts), w)
  | [] => by
      rw [List.map_nil, inlinesHtml]
      rfl
  | t :: rest => by
      rw [List.map_cons, inlinesHtml, inlineHtml, pure_bind, String.join_cons, escape_append]
      change (inlinesHtml (rest.map .text) w >>= fun p => .ok (escape t ++ p.1, p.2)) = _
      rw [inlinesHtml_texts w rest]
      rfl

theorem isBlankRun_texts (texts : List String) :
    isBlankRun (texts.map .text) = isBlank (String.join texts) := by
  induction texts with
  | nil => rfl
  | cons t rest ih =>
      change (isBlank t && isBlankRun (rest.map .text)) = _
      rw [ih, String.join_cons]
      simp only [isBlank, String.toList_append, List.all_append]

/-- A paragraph of texts is written as a paragraph of all of them, or not at all if it is blank. -/
theorem blockHtml_textParagraph (texts : List String) (w : Writer) :
    blockHtml (textParagraph texts) w =
      .ok (if isBlank (String.join texts) then "" else paragraph (String.join texts), w) := by
  rw [textParagraph, blockHtml, isBlankRun_texts]
  split
  · rfl
  · change (inlinesHtml (texts.map .text) w >>= fun p =>
      .ok ("<p>" ++ strip p.1 ++ "</p>", p.2)) = _
    rw [inlinesHtml_texts]
    rfl

theorem paragraph_ne_empty (s : String) : paragraph s ≠ "" := by
  intro h
  have hlength := congrArg (fun t : String => t.toList.length) h
  simp [paragraph] at hlength

theorem blockParts_cons_run {b : Block} {rest : List Block} {w w' w'' : Writer} {here : String}
    {after : List String} (hhere : blockHtml b w = .ok (here, w'))
    (hafter : blockParts rest w' = .ok (after, w'')) :
    blockParts (b :: rest) w = .ok (if here.isEmpty then after else here :: after, w'') := by
  rw [blockParts]
  change (blockHtml b w >>= fun p => blockParts rest p.2 >>= fun q =>
    .ok (if p.1.isEmpty then q.1 else p.1 :: q.1, q.2)) = _
  rw [hhere]
  change (blockParts rest w' >>= _) = _
  rw [hafter]
  rfl

/-- Of paragraphs of texts those are written that are not blank. -/
theorem blockParts_map_textParagraph (w : Writer) : ∀ groups : List (List String),
    blockParts (groups.map textParagraph) w =
      .ok (((groups.map String.join).filter (!isBlank ·)).map paragraph, w)
  | [] => by
      rw [List.map_nil, blockParts]
      rfl
  | g :: rest => by
      rw [List.map_cons, blockParts_cons_run (blockHtml_textParagraph g w)
        (blockParts_map_textParagraph w rest), List.map_cons]
      cases hblank : isBlank (String.join g) with
      | true =>
          rw [List.filter_cons_of_neg (by simp [hblank])]
          rfl
      | false =>
          have hsome : (paragraph (String.join g)).isEmpty = false := by
            simpa using paragraph_ne_empty (String.join g)
          rw [List.filter_cons_of_pos (by simp [hblank]), List.map_cons]
          simp [hsome]

theorem blockParts_textParagraphs (groups : List (List String)) (w : Writer) :
    blockParts (textParagraphs groups) w =
      .ok (((groups.map String.join).filter (!isBlank ·)).map paragraph, w) := by
  match groups with
  | [] => exact blockParts_map_textParagraph w []
  | [] :: rest =>
      rw [List.map_cons, List.filter_cons_of_neg (by decide)]
      exact blockParts_map_textParagraph w rest
  | (t :: g) :: rest => exact blockParts_map_textParagraph w ((t :: g) :: rest)

theorem joinLines_cons_ne_empty {s : String} (hs : s ≠ "") (rest : List String) :
    joinLines (s :: rest) ≠ "" := by
  unfold joinLines
  cases rest with
  | nil =>
      rw [String.intercalate_singleton]
      exact hs
  | cons t rest =>
      rw [String.intercalate_cons_of_ne_nil (List.cons_ne_nil t rest)]
      simp [hs]

theorem endLine_joinLines_paragraphs (texts : List String) :
    endLine (joinLines (texts.map paragraph)) =
      if texts.isEmpty then "" else joinLines (texts.map paragraph) ++ "\n" := by
  cases texts with
  | nil => rfl
  | cons t rest =>
      have hne : joinLines ((t :: rest).map paragraph) ≠ "" :=
        joinLines_cons_ne_empty (paragraph_ne_empty t) (rest.map paragraph)
      rw [endLine, if_neg (by simpa using hne)]
      rfl

/-- Paragraphs of texts have no notes, so that nothing follows them. -/
theorem render_textParagraphs {o : Options} (hfragment : o.standalone = false) (m : Metadata)
    (groups : List (List String)) :
    render o ⟨m, textParagraphs groups⟩ =
      .ok (endLine (joinLines (((groups.map String.join).filter (!isBlank ·)).map paragraph))) := by
  have hbody : (bodyHtml (textParagraphs groups)).run {} = .ok
      ((joinLines (((groups.map String.join).filter (!isBlank ·)).map paragraph), ""), {}) := by
    rw [bodyHtml]
    change (blockParts (textParagraphs groups) {} >>= fun p => _) = _
    rw [blockParts_textParagraphs]
    rfl
  rw [render, hbody]
  change Except.ok (pageHtml o m _ "") = _
  rw [pageHtml, hfragment]
  simp [endLine]

end Html

/-! ### The whole -/

/-- **A text without markup is compiled to the paragraphs of its segments**, but for the blank
ones. -/
theorem compile_markupFree (source : Source) (options : Html.Options) (maxDepth : Int)
    (hfree : MarkupFree source.text.toList) (hlex : ∃ tokens, lex source.text = .ok tokens)
    (hroom : 1 ≤ maxDepth) (hfragment : options.standalone = false) :
    (compile source options maxDepth).1 = .ok (paragraphsHtml source.text) := by
  obtain ⟨tokens, hlex⟩ := hlex
  obtain ⟨texts, heval, hsegments⟩ := hfree.evaluateStandard_eq hroom
  rw [compile_of_lex hlex, heval, paragraphsHtml, ← hsegments]
  change (Html.render options ⟨[], textParagraphs texts⟩).mapError Error.render = _
  rw [Html.render_textParagraphs hfragment, Html.endLine_joinLines_paragraphs]
  rfl

/-- A segment of a single space between two runs, and an empty one at the end, are left out. -/
theorem compile_markupFree_breaks :
    (compile { text := "a<b\r\n\n \n\r\n\nc\nd\n\n" } {} 1).1 =
      .ok "<p>a&lt;b</p>\n<p>c\nd</p>\n" := by
  have hfree : MarkupFree "a<b\r\n\n \n\r\n\nc\nd\n\n".toList := ⟨by decide, by decide⟩
  have hlex : ∃ tokens, lex "a<b\r\n\n \n\r\n\nc\nd\n\n" = .ok tokens := ⟨_, by cbv⟩
  have hhtml : paragraphsHtml "a<b\r\n\n \n\r\n\nc\nd\n\n" =
      "<p>a&lt;b</p>\n<p>c\nd</p>\n" := by cbv
  have hcompile := compile_markupFree { text := "a<b\r\n\n \n\r\n\nc\nd\n\n" } {} 1 hfree hlex
    (Int.le_refl 1) rfl
  exact hcompile.trans (congrArg Except.ok hhtml)

end Markup
