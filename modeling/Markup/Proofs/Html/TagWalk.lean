import Markup.Proofs.Html.MeantTags
import Markup.Proofs.Html.Spacing

/-! # Writing and listing tags side by side

The writer and the list of the start tags that are meant go through a document side by side: they
fail with the same error, or leave the writer in the same state, and what the one has written holds
the tags that the other has listed.  It is one induction on the tree (`blockHtml_holds` and its
fellows), with one thing to see: the list leaves out the tag of a caption where the writer finds
that nothing is left of its text, and it knows so without that text (`inlinesHtml_isBlank`).

The notes follow in the turns of the same loop (`noteParts_holds`), and `render_holds` is the
account of whole documents. -/

namespace Markup.Html

open Text Unicode

/-! ### Captions that vanish -/

theorem isBlank_append (s t : String) : isBlank (s ++ t) = (isBlank s && isBlank t) := by
  rw [isBlank, String.toList_append, List.all_append]
  rfl

/-- What begins with something else than whitespace is not blank. -/
theorem isBlank_append_of_not {s : String} (h : isBlank s = false) (t : String) :
    isBlank (s ++ t) = false := by
  rw [isBlank_append, h, Bool.false_and]

theorem all_isWhitespace_escapeChar (c : Char) :
    (escapeChar c).all isWhitespace = (c.toNat < 128 && isWhitespace c) := by
  unfold escapeChar
  split
  · next h => rw [h]; decide
  split
  · next h => rw [h]; decide
  split
  · next h => rw [h]; decide
  split
  · next h => rw [h]; decide
  split
  · next hascii =>
    have hhigh : decide (c.toNat < 128) = false := decide_eq_false (by omega)
    have hamp : "&#x".toList.all isWhitespace = false := by decide
    rw [hhigh, List.all_append, List.all_append, hamp, Bool.false_and, Bool.false_and,
      Bool.false_and]
  · next hascii =>
    have hlow : decide (c.toNat < 128) = true := decide_eq_true (by omega)
    rw [hlow, List.all_cons, List.all_nil, Bool.and_true, Bool.true_and]

theorem isBlank_escape (s : String) :
    isBlank (escape s) = s.toList.all fun c => c.toNat < 128 && isWhitespace c := by
  rw [isBlank, escape, String.toList_ofList, List.all_flatMap]
  simp only [all_isWhitespace_escapeChar]

theorem isBlank_styleTags (style : Style) : isBlank (styleTags style).1 = false := by
  cases style <;> decide

theorem isBlank_marks (kind : QuoteKind) : isBlank (escape kind.marks.1) = false := by
  rw [isBlank_escape]
  cases kind <;> decide

/-- What is written of inline content is blank just if the content vanishes. -/
theorem inlineHtml_isBlank {i : Inline} {w w' : Writer} {html : String}
    (h : inlineHtml i w = .ok (html, w')) : isBlank html = i.vanishes := by
  cases i with
  | text s =>
      cases h
      exact isBlank_escape s
  | styled style content =>
      rw [inlineHtml] at h
      obtain ⟨inner, _, -, h⟩ := exists_of_bind h
      cases h
      rw [String.append_assoc]
      exact isBlank_append_of_not (isBlank_styleTags style) _
  | quote kind content =>
      rw [inlineHtml] at h
      obtain ⟨inner, _, -, h⟩ := exists_of_bind h
      cases h
      rw [String.append_assoc]
      exact isBlank_append_of_not (isBlank_marks kind) _
  | code content language =>
      cases h
      simp only [String.append_assoc]
      exact isBlank_append_of_not (by decide) _
  | space =>
      cases h
      decide
  | link target content label kind =>
      rw [inlineHtml] at h
      obtain ⟨inner, _, -, h⟩ := exists_of_bind h
      cases h
      simp only [String.append_assoc]
      exact isBlank_append_of_not (by decide) _
  | footnote content =>
      rw [inlineHtml] at h
      obtain ⟨n, _, -, h⟩ := exists_of_bind h
      cases h
      unfold noteReference
      simp only [String.append_assoc]
      exact isBlank_append_of_not (by decide) _
  | math tex =>
      cases h
      simp only [String.append_assoc]
      exact isBlank_append_of_not (by decide) _
  | foreign value => cases h

theorem inlinesHtml_isBlank {run : List Inline} {w w' : Writer} {html : String}
    (h : inlinesHtml run w = .ok (html, w')) : isBlank html = run.all Inline.vanishes := by
  induction run generalizing w html with
  | nil =>
      cases h
      rfl
  | cons i rest ih =>
      rw [inlinesHtml] at h
      obtain ⟨here, w₁, hhere, h⟩ := exists_of_bind h
      obtain ⟨after, w₂, hafter, h⟩ := exists_of_bind h
      cases h
      rw [isBlank_append, List.all_cons, inlineHtml_isBlank hhere, ih hafter]

/-- A text is gone without the whitespace at its ends just if it is blank. -/
theorem isEmpty_strip (s : String) : (strip s).isEmpty = isBlank s := by
  rw [Bool.eq_iff_iff, String.isEmpty_iff]
  refine ⟨fun hempty => ?_, strip_of_isBlank⟩
  obtain ⟨first, last, heq, hfirst, hlast⟩ := exists_eq_append_strip s
  rw [hempty, String.toList_empty, List.append_nil] at heq
  rw [isBlank, heq, List.all_append, List.all_eq_true.mpr hfirst, List.all_eq_true.mpr hlast]
  rfl

/-! ### Two steps side by side -/

section steps

variable {α β : Type} {R : α → β → Prop} {x : Render α} {y : Render β}

theorem Tracks.throw (e : RenderError) :
    Tracks R (MonadExcept.throw e) (MonadExcept.throw e) :=
  fun _ => .inl ⟨e, rfl, rfl⟩

/-- What holds of every result of the first step may be used. -/
theorem Tracks.along {P : α → Prop} (h : Tracks R x y)
    (hP : ∀ {w a w'}, x w = .ok (a, w') → P a) : Tracks (fun a b => R a b ∧ P a) x y := by
  intro w
  rcases h w with herror | ⟨a, b, w', hx, hy, hab⟩
  · exact .inl herror
  · exact .inr ⟨a, b, w', hx, hy, hab, hP hx⟩

/-- Where the second step succeeds the first one does. -/
theorem Tracks.exists_left {w w' : Writer} {b : β} (h : Tracks R x y)
    (hy : y w = .ok (b, w')) : ∃ a, x w = .ok (a, w') ∧ R a b := by
  rcases h w with ⟨e, -, he⟩ | ⟨a, b', w₁, hx, hb, hab⟩
  · rw [hy] at he
    cases he
  · rw [hy] at hb
    cases hb
    exact ⟨a, hx, hab⟩

/-- What is made of the result of the first step. -/
theorem Tracks.mapLeft {γ : Type} {S : γ → β → Prop} {f : α → γ} (h : Tracks R x y)
    (hf : ∀ a b, R a b → S (f a) b) : Tracks S (x >>= fun a => Pure.pure (f a)) y := by
  have hmap : Tracks S (x >>= fun a => Pure.pure (f a)) (y >>= Pure.pure) := h.map hf
  rwa [bind_pure] at hmap

/-- An element, made of what is written of its content. -/
theorem Tracks.around {R : α → List StartTag → Prop} {y : Render (List StartTag)} {t : StartTag}
    {f : α → String} (h : Tracks R x y) (hf : ∀ a tags, R a tags → Holds (f a) (t :: tags)) :
    Tracks Holds (x >>= fun a => Pure.pure (f a)) (t.around y) := h.map hf

end steps

/-- The caption of a figure, which is left out if it vanishes. -/
theorem Holds.caption {caption : String} {tags : List StartTag} (h : Holds caption tags) :
    Holds (if (Text.strip caption).isEmpty then ""
        else "\n<figcaption>" ++ Text.strip caption ++ "</figcaption>")
      (if isBlank caption then [] else ⟨"figcaption", []⟩ :: tags) := by
  rw [isEmpty_strip]
  split
  · exact .text (by decide)
  · have htag := holds_bare "figcaption" (by decide) (by decide) h.strip
    have hline := holds_newline.append htag
    refine Eq.subst (motive := (Holds · _)) ?_ hline
    apply String.toList_inj.mp
    simp

/-! ### The tree -/

mutual

theorem inlineHtml_holds : ∀ i : Inline, Tracks Holds (inlineHtml i) (inlineTags i)
  | .text text => .pure (holds_escape text)
  | .styled style content =>
      (inlinesHtml_holds content).around fun _ _ hinner => holds_styled style hinner
  | .quote kind content => by
      rw [inlineHtml, inlineTags]
      refine (inlinesHtml_holds content).mapLeft fun inner tags hinner => ?_
      have hopen := holds_escape kind.marks.1
      have hclose := holds_escape kind.marks.2
      simpa using (hopen.append hinner).append hclose
  | .code content language => .pure (.element (element_code language _) (holds_escape content))
  | .space => .pure (.text (by decide))
  | .link target content label _ =>
      (linkHtml_holds target label content).around fun inner _ hinner =>
        .element (element_link target inner) hinner
  | .footnote content => .behind fun n => .pure (holds_noteReference n)
  | .math tex => by
      have hopen : Holds "\\(" [] := .text (by decide)
      have hclose : Holds "\\)" [] := .text (by decide)
      exact .pure (.element (element_math tex) ((hopen.append (holds_escape tex)).append hclose))
  | .foreign _ => .throw _

theorem inlinesHtml_holds : ∀ run : List Inline,
    Tracks Holds (inlinesHtml run) (inlinesTags run)
  | [] => .pure (.text (by decide))
  | i :: rest =>
      (inlineHtml_holds i).bind fun _ _ hhere =>
        (inlinesHtml_holds rest).map fun _ _ hafter => hhere.append hafter

theorem linkHtml_holds (target : String) (label : Option String) :
    ∀ content : Option (List Inline),
      Tracks Holds (linkHtml target label content) (linkTags content)
  | some content => inlinesHtml_holds content
  | none => .pure (holds_escape _)

end

mutual

theorem blockHtml_holds : ∀ b : Block, Tracks Holds (blockHtml b) (blockTags b)
  | .plain content => by
      rw [blockHtml, blockTags]
      exact (inlinesHtml_holds content).mapLeft fun _ _ hinner => hinner.strip
  | .par content => by
      rw [blockHtml, blockTags]
      split
      · exact .pure (.text (by decide))
      · exact (inlinesHtml_holds content).around fun _ _ hinner =>
          holds_bare "p" (by decide) (by decide) hinner.strip
  | .codeBlock language content => by
      rw [blockHtml, blockTags]
      simp only [StartTag.around, bind_assoc, pure_bind]
      refine (inlinesHtml_holds content).map fun inner tags hinner => ?_
      have hcode := Holds.element (element_code language inner) hinner
      refine .element ((Element.bare "pre" _ (by decide) (by decide)).of_eq ?_) hcode
      apply String.toList_inj.mp
      simp
  | .blockQuote content => by
      rw [blockHtml, blockTags]
      refine (blockParts_holds content).around fun inner tags hinner => ?_
      refine .element ((Element.bare "blockquote" _ (by decide) (by decide)).of_eq ?_) hinner.lines
      apply String.toList_inj.mp
      simp
  | .tagged content metadata => by
      rw [blockHtml, blockTags]
      refine (blockParts_holds content).around fun inner tags hinner => ?_
      refine .element ((element_tagged metadata _).of_eq ?_) hinner.lines
      apply String.toList_inj.mp
      simp
  | .list kind items => by
      rw [blockHtml, blockTags]
      refine (itemParts_holds items).around fun inner tags hinner => ?_
      rw [joinLines_between]
      exact holds_list kind hinner.between
  | .termList items => by
      rw [blockHtml, blockTags]
      refine (termParts_holds items).around fun inner tags hinner => ?_
      rw [joinLines_between]
      exact holds_bare "dl" (by decide) (by decide) hinner.between
  | .heading level text => by
      rw [blockHtml, blockTags]
      split
      · next hlevel =>
        refine .behind fun slug => ?_
        simp only [StartTag.around, bind_assoc, pure_bind]
        exact (inlinesHtml_holds text).map fun inner tags hinner =>
          holds_headingText hlevel slug hinner.strip
      · exact .throw _
  | .rule => .pure holds_rule
  | .table _ rows => by
      rw [blockHtml, blockTags]
      refine (rowParts_holds rows).around fun inner tags hinner => ?_
      rw [joinLines_between]
      exact holds_bare "table" (by decide) (by decide) hinner.between
  | .figure content caption => by
      rw [blockHtml, blockTags]
      refine ((inlinesHtml_holds caption).along inlinesHtml_isBlank).bind fun text under htext => ?_
      refine (blockParts_holds content).map fun inner tags hinner => ?_
      rw [← htext.2]
      have hlines := holds_newline.append
        (Holds.append hinner (htext.1.caption.append holds_newline))
      rw [List.nil_append, List.append_nil] at hlines
      refine .element ((Element.bare "figure" _ (by decide) (by decide)).of_eq ?_) hlines
      apply String.toList_inj.mp
      simp
  | .defn kind content => by
      rw [blockHtml, blockTags]
      refine (blockParts_holds content).around fun inner tags hinner => ?_
      refine .element ((element_defn kind _).of_eq ?_) hinner.lines
      apply String.toList_inj.mp
      simp
  | .mathBlock tex => by
      have hopen : Holds "\\[" [] := .text (by decide)
      have hclose : Holds "\\]" [] := .text (by decide)
      exact .pure (.element (element_mathBlock tex)
        ((hopen.append (holds_escape tex)).append hclose))
  | .foreign _ => .throw _

theorem blockParts_holds : ∀ bs : List Block, Tracks HoldLines (blockParts bs) (blocksTags bs)
  | [] => .pure .nil
  | b :: rest =>
      (blockHtml_holds b).bind fun _ _ hhere =>
        (blockParts_holds rest).map fun _ _ hafter => .consUnlessEmpty hhere hafter

theorem tightHtml_holds (bs : List Block) : Tracks Holds (tightHtml bs) (tightTags bs) := by
  cases bs with
  | nil => exact .pure (.text (by decide))
  | cons b rest =>
      unfold tightHtml
      split
      · next content =>
        rw [tightTags]
        exact (inlinesHtml_holds content).mapLeft fun _ _ hinner => hinner.strip
      · next content =>
        rw [tightTags]
        exact (inlinesHtml_holds content).mapLeft fun _ _ hinner => hinner.strip
      · next hpar hplain =>
        rw [tightTags]
        · exact (blockHtml_holds b).bind fun _ _ hhere =>
            (blockParts_holds rest).map fun _ _ hafter => HoldLines.consUnlessEmpty hhere hafter
        · exact hpar
        · exact hplain

theorem itemParts_holds : ∀ items : List ListItem,
    Tracks HoldLines (itemParts items) (itemsTags items)
  | [] => .pure .nil
  | .mk content label :: rest => by
      rw [itemParts, itemsTags]
      simp only [StartTag.around, inTurn, bind_assoc, pure_bind]
      refine (labelHtml_holds label).bind fun label tags hlabel =>
        (tightHtml_holds content).bind fun inner tags' hinner =>
        (itemParts_holds rest).map fun after tags'' hafter => ?_
      refine .cons (.element ((Element.bare "li" _ (by decide) (by decide)).of_eq ?_)
        (hlabel.append hinner)) hafter
      apply String.toList_inj.mp
      simp

theorem labelHtml_holds : ∀ label : Option (List Inline),
    Tracks Holds (labelHtml label) (labelTags label)
  | none => .pure (.text (by decide))
  | some label => by
      rw [labelHtml, labelTags]
      refine (inlinesHtml_holds label).around fun inner tags hinner => ?_
      have hspan := Holds.element
        (Element.classed "span" "label" _ (by decide) (by decide) (by decide)) hinner.strip
      have hspace : Holds " " [] := .text (by decide)
      have h := hspan.append hspace
      rw [List.append_nil] at h
      refine Eq.subst (motive := (Holds · _)) ?_ h
      apply String.toList_inj.mp
      simp

theorem termParts_holds : ∀ items : List TermItem,
    Tracks HoldLines (termParts items) (termsTags items)
  | [] => .pure .nil
  | .mk term content :: rest => by
      rw [termParts, termsTags]
      simp only [StartTag.around, inTurn, bind_assoc, pure_bind]
      exact (inlinesHtml_holds term).bind fun term tags hterm =>
        (tightHtml_holds content).bind fun inner tags' hinner =>
        (termParts_holds rest).map fun after tags'' hafter =>
          .cons (holds_bare "dt" (by decide) (by decide) hterm.strip)
            (.cons (holds_bare "dd" (by decide) (by decide) hinner) hafter)

theorem cellsHtml_holds : ∀ cells : List TableCell,
    Tracks Holds (cellsHtml cells) (cellsTags cells)
  | [] => .pure (.text (by decide))
  | .mk content alignment rowSpan colSpan :: rest => by
      rw [cellsHtml, cellsTags]
      simp only [StartTag.around, inTurn, bind_assoc, pure_bind]
      exact (tightHtml_holds content).bind fun inner _ hinner =>
        (cellsHtml_holds rest).map fun _ _ hafter =>
          (Holds.element (element_cell alignment rowSpan colSpan inner) hinner).append hafter

theorem rowParts_holds : ∀ rows : List (List TableCell),
    Tracks HoldLines (rowParts rows) (rowsTags rows)
  | [] => .pure .nil
  | row :: rest => by
      rw [rowParts, rowsTags]
      simp only [StartTag.around, inTurn, bind_assoc, pure_bind]
      exact (cellsHtml_holds row).bind fun _ _ hcells =>
        (rowParts_holds rest).map fun _ _ hafter =>
          .cons (holds_bare "tr" (by decide) (by decide) hcells) hafter

end

/-! ### Notes and documents -/

theorem noteParts_holds (turns i : Nat) :
    Tracks HoldLines (noteParts turns i) (queueTags turns i) := by
  induction turns generalizing i with
  | zero => exact .pure .nil
  | succ turns ih =>
      rw [noteParts, queueTags]
      refine .behind fun w => ?_
      cases w.notes[i]? with
      | none => exact .pure .nil
      | some content =>
          simp only [noteTags, StartTag.around, inTurn, bind_assoc, pure_bind]
          exact (tightHtml_holds content).bind fun _ _ hbody =>
            (ih (i + 1)).map fun _ _ hafter => .cons (holds_noteItem (i + 1) hbody) hafter

theorem notesHtml_holds (turns : Nat) : Tracks Holds (notesHtml turns) (notesTags turns) := by
  rw [notesHtml, notesTags]
  refine .behind fun w => ?_
  split
  · exact .pure (.text (by decide))
  · refine (noteParts_holds turns 0).around fun items tags hitems => ?_
    rw [joinLines_between]
    exact .element (.classed "ol" "footnotes" _ (by decide) (by decide) (by decide)) hitems.between

/-- A document is written and its tags are listed, or both fail with the same error; what is written
holds the tags that are listed. -/
theorem render_holds (o : Options) (d : Document) :
    (∃ e, render o d = .error e ∧ documentTags o d = .error e) ∨
      ∃ html tags, render o d = .ok html ∧ documentTags o d = .ok tags ∧ Holds html tags := by
  have hbody : Tracks (fun r tags => Holds (pageHtml o d.metadata r.1 r.2)
      (pageTags o d.metadata tags)) (bodyHtml d.content) (bodyTags d.content) :=
    (blockParts_holds d.content).bind fun _ _ hparts => (notesHtml_holds _).map fun _ _ hnotes =>
      holds_pageHtml o d.metadata hparts hnotes
  unfold render documentTags
  rcases hbody {} with ⟨e, hhtml, htags⟩ | ⟨r, tags, w, hhtml, htags, hholds⟩
  · rw [StateT.run, StateT.run, hhtml, htags]
    exact .inl ⟨e, rfl, rfl⟩
  · rw [StateT.run, StateT.run, hhtml, htags]
    exact .inr ⟨_, _, rfl, rfl, hholds⟩

end Markup.Html
