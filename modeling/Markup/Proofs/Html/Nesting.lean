import Markup.Proofs.Doc.MadeOf
import Markup.Proofs.Html.Template

/-! # Written documents are well nested

Writing a well-formed document succeeds, and what is written is ASCII and well nested
(`render_wellNested`).  Each step of the writer is shown to succeed with a flow, whatever slugs
are taken and whatever well-formed notes are in the queue (`Writes`), by induction on the tree
(`blockHtml_writes` and its fellows).  The notes that a block queues are parts of it, so that the
queue stays well formed and the loop over it (`noteParts_writes`) writes flows too. -/

namespace Markup.Html

/-! ### Steps of the writer -/

/-- A queue of notes that can be written. -/
def Writer.WellFormed (w : Writer) : Prop := ∀ note ∈ w.notes, blocksMadeOf Writable note

/-- A step that succeeds from every well-formed state with a result of a certain form, and leaves
the state well formed. -/
def Writes {α : Type} (step : Render α) (form : α → Prop) : Prop :=
  ∀ w : Writer, w.WellFormed → ∃ a w', step w = .ok (a, w') ∧ form a ∧ w'.WellFormed

section steps

variable {α β : Type} {form : α → Prop}

theorem Writes.pure {a : α} (h : form a) : Writes (Pure.pure a : Render α) form :=
  fun w hw => ⟨a, w, rfl, h, hw⟩

theorem Writes.bind {form' : β → Prop} {step : Render α} {next : α → Render β}
    (h : Writes step form) (hnext : ∀ a, form a → Writes (next a) form') :
    Writes (step >>= next) form' := by
  intro w hw
  obtain ⟨a, w', hstep, ha, hw'⟩ := h w hw
  obtain ⟨b, w'', hb, hform, hw''⟩ := hnext a ha w' hw'
  refine ⟨b, w'', ?_, hform, hw''⟩
  change (step w >>= fun p => next p.1 p.2) = _
  rw [hstep]
  exact hb

end steps

theorem get_writes : Writes get Writer.WellFormed := fun w hw => ⟨w, w, rfl, hw, hw⟩

theorem addNote_writes {content : List Block} (h : blocksMadeOf Writable content) :
    Writes (addNote content) fun _ => True := by
  intro w hw
  refine ⟨_, _, rfl, trivial, ?_⟩
  intro note hnote
  rcases List.mem_append.mp hnote with hnote | hnote
  · exact hw note hnote
  · rw [List.mem_singleton.mp hnote]
    exact h

theorem takeSlug_writes (text : String) : Writes (takeSlug text) fun _ => True :=
  fun _ hw => ⟨_, _, rfl, trivial, hw⟩

/-! ### The tree -/

/-- A list of flows. -/
def Flows (parts : List String) : Prop := ∀ s ∈ parts, Flow s

theorem flows_nil : Flows [] := fun _ h => by cases h

theorem flows_cons {s : String} {parts : List String} (hs : Flow s) (h : Flows parts) :
    Flows (s :: parts) := by
  intro t ht
  rcases List.mem_cons.mp ht with rfl | ht
  · exact hs
  · exact h t ht

/-- Leaving out a part that is empty leaves flows. -/
theorem flows_consUnlessEmpty {s : String} {parts : List String} (hs : Flow s) (h : Flows parts) :
    Flows (if s.isEmpty then parts else s :: parts) := by
  split
  · exact h
  · exact flows_cons hs h

/-- Flows on lines between the tags of an element. -/
theorem flow_lines {parts : List String} (h : Flows parts) :
    Flow ("\n" ++ joinLines parts ++ "\n") :=
  (flow_newline.append (flow_joinLines h)).append flow_newline

mutual

theorem inlineHtml_writes : ∀ i : Inline, i.MadeOf Writable → Writes (inlineHtml i) Flow
  | .text text, _ => .pure (flow_escape text)
  | .styled style content, h => by
      refine .bind (inlinesHtml_writes content h) fun inner hinner => ?_
      exact .pure (flow_styled style hinner)
  | .quote kind content, h => by
      refine .bind (inlinesHtml_writes content h) fun inner hinner => ?_
      exact .pure (((flow_escape _).append hinner).append (flow_escape _))
  | .code content language, _ => .pure (flow_code language (flow_escape content))
  | .space, _ => .pure (.text (by decide))
  | .link target content label _, h => by
      refine .bind (linkHtml_writes target label content h) fun inner hinner => ?_
      exact .pure (flow_link target hinner)
  | .footnote content, h => by
      refine .bind (addNote_writes h) fun n _ => ?_
      exact .pure (flow_noteReference n)
  | .math tex, _ => .pure (flow_math tex)
  | .foreign _, h => h.elim

theorem inlinesHtml_writes : ∀ run : List Inline, inlinesMadeOf Writable run →
    Writes (inlinesHtml run) Flow
  | [], _ => .pure .empty
  | i :: rest, h => by
      refine .bind (inlineHtml_writes i h.1) fun here hhere => ?_
      refine .bind (inlinesHtml_writes rest h.2) fun after hafter => ?_
      exact .pure (hhere.append hafter)

theorem linkHtml_writes (target : String) (label : Option String) :
    ∀ content : Option (List Inline), optionMadeOf Writable content →
      Writes (linkHtml target label content) Flow
  | some content, h => inlinesHtml_writes content h
  | none, _ => .pure (flow_escape _)

theorem blockHtml_writes : ∀ b : Block, b.MadeOf Writable → Writes (blockHtml b) Flow
  | .plain content, h => by
      refine .bind (inlinesHtml_writes content h.2) fun inner hinner => ?_
      exact .pure hinner.strip
  | .par content, h => by
      rw [blockHtml]
      split
      · exact .pure .empty
      · refine .bind (inlinesHtml_writes content h.2) fun inner hinner => ?_
        exact .pure (.bare "p" (by decide) (by decide) hinner.strip)
  | .codeBlock language content, h => by
      refine .bind (inlinesHtml_writes content h.2) fun inner hinner => .pure ?_
      refine (Flow.bare "pre" (by decide) (by decide) (flow_code language hinner)).of_eq ?_
      apply String.toList_inj.mp
      simp
  | .blockQuote content, h => by
      refine .bind (blockParts_writes content h.2) fun inner hinner => .pure ?_
      refine (Flow.bare "blockquote" (by decide) (by decide) (flow_lines hinner)).of_eq ?_
      apply String.toList_inj.mp
      simp
  | .tagged content metadata, h => by
      refine .bind (blockParts_writes content h.2) fun inner hinner => .pure ?_
      refine (flow_tagged metadata (flow_lines hinner)).of_eq ?_
      apply String.toList_inj.mp
      simp
  | .list kind items, h => by
      refine .bind (itemParts_writes items h.2) fun inner hinner => .pure ?_
      rw [joinLines_between]
      exact flow_list kind (flow_between hinner)
  | .termList items, h => by
      refine .bind (termParts_writes items h.2) fun inner hinner => .pure ?_
      rw [joinLines_between]
      exact .bare "dl" (by decide) (by decide) (flow_between hinner)
  | .heading level text, h => by
      have hlevel : 1 ≤ level ∧ level ≤ 6 := h.1
      rw [blockHtml, if_pos hlevel]
      refine .bind (takeSlug_writes _) fun slug _ => ?_
      refine .bind (inlinesHtml_writes text h.2) fun inner hinner => ?_
      exact .pure (flow_heading hlevel slug hinner.strip)
  | .rule, _ => .pure .rule
  | .table _ rows, h => by
      refine .bind (rowParts_writes rows h.2) fun inner hinner => .pure ?_
      rw [joinLines_between]
      exact .bare "table" (by decide) (by decide) (flow_between hinner)
  | .figure content caption, h => by
      refine .bind (inlinesHtml_writes caption h.2.2) fun text htext => ?_
      refine .bind (blockParts_writes content h.2.1) fun inner hinner => .pure ?_
      have hlines := flow_newline.append
        ((flow_joinLines hinner).append ((flow_caption htext.strip).append flow_newline))
      refine (Flow.bare "figure" (by decide) (by decide) hlines).of_eq ?_
      apply String.toList_inj.mp
      simp
  | .defn kind content, h => by
      refine .bind (blockParts_writes content h.2) fun inner hinner => .pure ?_
      refine (flow_defn kind (flow_lines hinner)).of_eq ?_
      apply String.toList_inj.mp
      simp
  | .mathBlock tex, _ => .pure (flow_mathBlock tex)
  | .foreign _, h => h.elim

theorem blockParts_writes : ∀ bs : List Block, blocksMadeOf Writable bs →
    Writes (blockParts bs) Flows
  | [], _ => .pure flows_nil
  | b :: rest, h => by
      refine .bind (blockHtml_writes b h.1) fun here hhere => ?_
      refine .bind (blockParts_writes rest h.2) fun after hafter => ?_
      exact .pure (flows_consUnlessEmpty hhere hafter)

theorem tightHtml_writes : ∀ bs : List Block, blocksMadeOf Writable bs →
    Writes (tightHtml bs) Flow
  | [], _ => .pure .empty
  | b :: rest, h => by
      unfold tightHtml
      split
      · refine .bind (inlinesHtml_writes _ h.1.2) fun inner hinner => ?_
        exact .pure hinner.strip
      · refine .bind (inlinesHtml_writes _ h.1.2) fun inner hinner => ?_
        exact .pure hinner.strip
      · refine .bind (blockHtml_writes b h.1) fun here hhere => ?_
        refine .bind (blockParts_writes rest h.2) fun after hafter => ?_
        exact .pure (flow_joinLines (flows_consUnlessEmpty hhere hafter))

theorem itemParts_writes : ∀ items : List ListItem, itemsMadeOf Writable items →
    Writes (itemParts items) Flows
  | [], _ => .pure flows_nil
  | .mk content label :: rest, h => by
      refine .bind (labelHtml_writes label h.2.1) fun label hlabel => ?_
      refine .bind (tightHtml_writes content h.1) fun inner hinner => ?_
      refine .bind (itemParts_writes rest h.2.2) fun after hafter => .pure (flows_cons ?_ hafter)
      refine (Flow.bare "li" (by decide) (by decide) (hlabel.append hinner)).of_eq ?_
      apply String.toList_inj.mp
      simp

theorem labelHtml_writes : ∀ label : Option (List Inline), optionMadeOf Writable label →
    Writes (labelHtml label) Flow
  | none, _ => .pure .empty
  | some label, h => by
      refine .bind (inlinesHtml_writes label h) fun inner hinner => .pure ?_
      have hspan := Flow.classed "span" "label" (by decide) (by decide) (by decide) hinner.strip
      have hspace : Flow " " := .text (by decide)
      refine (hspan.append hspace).of_eq ?_
      apply String.toList_inj.mp
      simp

theorem termParts_writes : ∀ items : List TermItem, termsMadeOf Writable items →
    Writes (termParts items) Flows
  | [], _ => .pure flows_nil
  | .mk term content :: rest, h => by
      refine .bind (inlinesHtml_writes term h.1) fun term hterm => ?_
      refine .bind (tightHtml_writes content h.2.1) fun inner hinner => ?_
      refine .bind (termParts_writes rest h.2.2) fun after hafter => .pure ?_
      exact flows_cons (.bare "dt" (by decide) (by decide) hterm.strip)
        (flows_cons (.bare "dd" (by decide) (by decide) hinner) hafter)

theorem cellsHtml_writes : ∀ cells : List TableCell, cellsMadeOf Writable cells →
    Writes (cellsHtml cells) Flow
  | [], _ => .pure .empty
  | .mk content alignment rowSpan colSpan :: rest, h => by
      refine .bind (tightHtml_writes content h.1) fun inner hinner => ?_
      refine .bind (cellsHtml_writes rest h.2) fun after hafter => ?_
      exact .pure ((flow_cell alignment rowSpan colSpan hinner).append hafter)

theorem rowParts_writes : ∀ rows : List (List TableCell), rowsMadeOf Writable rows →
    Writes (rowParts rows) Flows
  | [], _ => .pure flows_nil
  | row :: rest, h => by
      refine .bind (cellsHtml_writes row h.1) fun cells hcells => ?_
      refine .bind (rowParts_writes rest h.2) fun after hafter => ?_
      exact .pure (flows_cons (.bare "tr" (by decide) (by decide) hcells) hafter)

end

/-! ### Notes and documents -/

/-- The loop over the queue of notes, for as many turns as it is given. -/
theorem noteParts_writes (turns i : Nat) : Writes (noteParts turns i) Flows := by
  induction turns generalizing i with
  | zero => exact .pure flows_nil
  | succ turns ih =>
      refine .bind get_writes fun w hw => ?_
      split
      · exact .pure flows_nil
      · next content hcontent =>
        refine .bind (tightHtml_writes content (hw content (List.mem_of_getElem? hcontent)))
          fun body hbody => ?_
        refine .bind (ih (i + 1)) fun after hafter => ?_
        exact .pure (flows_cons (flow_noteItem (i + 1) hbody) hafter)

theorem notesHtml_writes (turns : Nat) : Writes (notesHtml turns) Flow := by
  refine .bind get_writes fun w hw => ?_
  split
  · exact .pure .empty
  · refine .bind (noteParts_writes turns 0) fun items hitems => .pure ?_
    rw [joinLines_between]
    exact .classed "ol" "footnotes" (by decide) (by decide) (by decide) (flow_between hitems)

theorem bodyHtml_writes {content : List Block} (h : blocksMadeOf Writable content) :
    Writes (bodyHtml content) fun p => Flow p.1 ∧ Flow p.2 := by
  refine .bind (blockParts_writes content h) fun body hbody => ?_
  refine .bind (notesHtml_writes _) fun notes hnotes => ?_
  exact .pure ⟨flow_joinLines hbody, hnotes⟩

/-- A well-formed document is written as a flow. -/
theorem exists_flow_render (o : Options) {d : Document} (h : d.WellFormed) :
    ∃ html, render o d = .ok html ∧ Flow html := by
  have hempty : Writer.WellFormed {} := fun _ hnote => by cases hnote
  obtain ⟨⟨body, notes⟩, w, hrun, ⟨hbody, hnotes⟩, -⟩ := bodyHtml_writes h {} hempty
  refine ⟨pageHtml o d.metadata body notes, ?_, flow_pageHtml o d.metadata hbody hnotes⟩
  unfold render
  rw [StateT.run, hrun]
  rfl

/-- **Written documents**: a well-formed document, whatever its nesting and its texts, is written
under all options, and what is written is ASCII and well nested. -/
theorem render_wellNested (o : Options) {d : Document} (h : d.WellFormed) :
    ∃ html, render o d = .ok html ∧ (∀ c ∈ html.toList, c.toNat < 128) ∧ WellNested html := by
  obtain ⟨html, hrender, hflow⟩ := exists_flow_render o h
  exact ⟨html, hrender, hflow.ascii, hflow.wellNested⟩

/-- Brackets, quotes and characters beyond ASCII in every place of a document that takes text: keys
and values, the name of an attribute, and a note inside the caption of a figure inside a table. -/
def hostileDocument : Document where
  metadata := [("title", "</title>"), ("\"<", "é")]
  content := [
    .tagged [.table [] [[.mk [.figure [.plain [.code "\x00<" (some "\">")]]
      [.footnote [.heading 6 [.text "</li>"], .par [.footnote [.rule]]]]] none 2 1], []]]
      [(" onclick=\"<", ">")],
    .list .ordered [.mk [] (some [])]]

theorem render_wellNested_hostile :
    hostileDocument.WellFormed ∧
      ∃ html, render ⟨true, some "\"><", ["a&b>"]⟩ hostileDocument = .ok html ∧
        (∀ c ∈ html.toList, c.toNat < 128) ∧ WellNested html := by
  have h : hostileDocument.WellFormed := by
    simp [hostileDocument, Document.WellFormed, blocksMadeOf, Block.MadeOf, Inline.MadeOf,
      inlinesMadeOf, rowsMadeOf, cellsMadeOf, itemsMadeOf, optionMadeOf, Writable]
  exact ⟨h, render_wellNested _ h⟩

end Markup.Html
