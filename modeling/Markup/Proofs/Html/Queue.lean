import Markup.Proofs.Doc.MadeOf
import Markup.Proofs.Html.Anchor

/-! # What writing a tree does to the queue of notes

Writing a part of a document puts the notes at its surface into the queue and refers to each of
them once, by the number of its place there.  `Refers` says so of a step that succeeds, and counts:
the notes that were queued, together with the notes inside them, are all the notes of the part.
So a reference is neither dropped with a blank paragraph or an empty block nor written twice, and
no note of the part is missed.

The same contract says what success means.  A part that was written has headings of the six levels
only and no value out of place, as far as it is not inside a note; of the notes in the queue that
is still to be seen.  All of it is one induction on the tree (`blockHtml_refers` and its
fellows). -/

namespace Markup.Html

/-! ### Steps of the writer -/

/-- Number of notes in a queue, those inside them included. -/
def queuedNotes : List (List Block) → Nat
  | [] => 0
  | note :: queue => blocksNotes note + 1 + queuedNotes queue

theorem queuedNotes_append (queue queue' : List (List Block)) :
    queuedNotes (queue ++ queue') = queuedNotes queue + queuedNotes queue' := by
  induction queue with
  | nil => simp [queuedNotes]
  | cons note queue ih => simp [queuedNotes, ih, Nat.add_assoc]

/-- A step that, if it succeeds, queues `size` notes, those inside them included, and refers to the
queued ones in a result that `shows` their numbers; `made` holds if what was queued can be
written. -/
def Refers {α : Type} (step : Render α) (size : Nat) (made : Prop)
    (shows : α → List Nat → Prop) : Prop :=
  ∀ ⦃w : Writer⦄ ⦃a : α⦄ ⦃w' : Writer⦄, step w = .ok (a, w') →
    ∃ new, w'.notes = w.notes ++ new ∧ queuedNotes new = size ∧
      shows a (List.range' (w.notes.length + 1) new.length) ∧
      ((∀ note ∈ new, blocksMadeOf Writable note) → made)

section steps

variable {α β : Type} {n m : Nat} {p q : Prop} {shows : α → List Nat → Prop}
  {shows' : β → List Nat → Prop} {step : Render α} {next : α → Render β}

theorem Refers.pure {a : α} (h : shows a []) : Refers (Pure.pure a) 0 True shows := by
  rintro w _ _ ⟨⟩
  exact ⟨[], by simp, rfl, h, fun _ => trivial⟩

theorem Refers.throw (e : RenderError) : Refers (MonadExcept.throw e : Render α) n p shows := by
  intro w a w' h
  cases h

theorem Refers.of (h : Refers step n p shows) (hsize : n = m) (hmade : p → q) :
    Refers step m q shows := by
  intro w a w' hrun
  obtain ⟨new, hnotes, htotal, hshows, hnew⟩ := h hrun
  exact ⟨new, hnotes, htotal.trans hsize, hshows, fun hwritable => hmade (hnew hwritable)⟩

theorem exists_of_bind {w w'' : Writer} {b : β} (h : (step >>= next) w = .ok (b, w'')) :
    ∃ a w', step w = .ok (a, w') ∧ next a w' = .ok (b, w'') := by
  change (step w >>= fun r => next r.1 r.2) = _ at h
  cases hstep : step w with
  | error e =>
      rw [hstep] at h
      cases h
  | ok r =>
      rw [hstep] at h
      exact ⟨r.1, r.2, rfl, h⟩

/-- One step after another: the second goes on counting where the first stopped. -/
theorem Refers.bind (h : Refers step n p shows)
    (hnext : ∀ a refs, shows a refs →
      Refers (next a) m q fun b refs' => shows' b (refs ++ refs')) :
    Refers (step >>= next) (n + m) (p ∧ q) shows' := by
  intro w b w'' hrun
  obtain ⟨a, w', hstep, hrest⟩ := exists_of_bind hrun
  obtain ⟨new, hnotes, hsize, hshows, hmade⟩ := h hstep
  obtain ⟨new', hnotes', hsize', hshows', hmade'⟩ := hnext a _ hshows hrest
  refine ⟨new ++ new', ?_, ?_, ?_, ?_⟩
  · rw [hnotes', hnotes, List.append_assoc]
  · rw [queuedNotes_append, hsize, hsize']
  · rw [hnotes, List.length_append, Nat.add_right_comm, List.range'_append_1] at hshows'
    rw [List.length_append]
    exact hshows'
  · intro hwritable
    exact ⟨hmade fun note hnote => hwritable note (List.mem_append_left _ hnote),
      hmade' fun note hnote => hwritable note (List.mem_append_right _ hnote)⟩

/-- A step and what is made of its result. -/
theorem Refers.map (h : Refers step n p shows) {f : α → β}
    (hf : ∀ a refs, shows a refs → shows' (f a) refs) :
    Refers (step >>= fun a => Pure.pure (f a)) n p shows' := by
  refine (h.bind fun a refs ha => .pure ?_).of rfl And.left
  rw [List.append_nil]
  exact hf a refs ha

end steps

theorem addNote_refers (content : List Block) :
    Refers (addNote content) (blocksNotes content + 1) (blocksMadeOf Writable content)
      fun n refs => refs = [n] := by
  rintro w _ _ ⟨⟩
  refine ⟨[content], rfl, rfl, ?_, ?_⟩
  · simp
  · exact fun h => h content List.mem_cons_self

theorem takeSlug_refers (text : String) :
    Refers (takeSlug text) 0 True fun _ refs => refs = [] := by
  rintro w _ _ ⟨⟩
  exact ⟨[], by simp, rfl, rfl, fun _ => trivial⟩

/-! ### The tree -/

/-- A blank run has neither notes nor blocks. -/
theorem of_isBlankRun {p : BlockKind → Prop} : ∀ {run : List Inline}, isBlankRun run = true →
    inlinesNotes run = 0 ∧ inlinesMadeOf p run
  | [], _ => ⟨rfl, trivial⟩
  | i :: rest, h => by
      rw [isBlankRun, List.all_cons, Bool.and_eq_true] at h
      obtain ⟨hnotes, hmade⟩ := of_isBlankRun (p := p) h.2
      cases i with
      | text s => exact ⟨by rw [inlinesNotes, hnotes]; rfl, trivial, hmade⟩
      | _ => exact absurd h.1 (by simp [Inline.isBlank])

mutual

theorem inlineHtml_refers : ∀ i : Inline,
    Refers (inlineHtml i) (inlineNotes i) (i.MadeOf Writable) (Shows · · [])
  | .text text => .pure (shows_compositional.escape text)
  | .styled style content =>
      (inlinesHtml_refers content).map fun inner _ hinner =>
        .encloses (encloses_styled style inner) hinner
  | .quote kind content => by
      refine (inlinesHtml_refers content).map fun inner refs hinner => ?_
      have hopen := shows_compositional.escape kind.marks.1
      have hclose := shows_compositional.escape kind.marks.2
      simpa using (hopen.append hinner).append hclose
  | .code content language =>
      .pure (.encloses (encloses_code language _) (shows_compositional.escape content))
  | .space => .pure (.text (by decide))
  | .link target content label _ =>
      (linkHtml_refers target label content).map fun inner _ hinner =>
        .encloses (encloses_link target inner) hinner
  | .footnote content => by
      refine (addNote_refers content).map fun n refs hrefs => ?_
      rw [hrefs]
      exact shows_noteReference n
  | .math tex => .pure (shows_compositional.math tex)
  | .foreign _ => .throw _

theorem inlinesHtml_refers : ∀ run : List Inline,
    Refers (inlinesHtml run) (inlinesNotes run) (inlinesMadeOf Writable run) (Shows · · [])
  | [] => .pure (.text (by decide))
  | i :: rest =>
      (inlineHtml_refers i).bind fun _ _ hhere =>
        (inlinesHtml_refers rest).map fun _ _ hafter => hhere.append hafter

theorem linkHtml_refers (target : String) (label : Option String) :
    ∀ content : Option (List Inline),
      Refers (linkHtml target label content) (optionNotes content) (optionMadeOf Writable content)
        (Shows · · [])
  | some content => inlinesHtml_refers content
  | none => .pure (shows_compositional.escape _)

theorem blockHtml_refers : ∀ b : Block,
    Refers (blockHtml b) (blockNotes b) (b.MadeOf Writable) (Shows · · [])
  | .plain content => by
      refine ((inlinesHtml_refers content).map fun inner refs hinner => ?_).of rfl (.intro trivial)
      exact hinner.strip
  | .par content => by
      rw [blockHtml]
      split
      · next hblank =>
        obtain ⟨hnotes, hmade⟩ := of_isBlankRun (p := Writable) hblank
        exact (Refers.pure (.text (by decide))).of hnotes.symm fun _ => ⟨trivial, hmade⟩
      · refine ((inlinesHtml_refers content).map fun inner refs hinner => ?_).of rfl
          (.intro trivial)
        exact .encloses (.bare "p" _ (by decide) (by decide)) hinner.strip
  | .codeBlock language content => by
      refine ((inlinesHtml_refers content).map fun inner refs hinner => ?_).of rfl (.intro trivial)
      have hcode := Shows.encloses (encloses_code language inner) hinner
      refine .encloses ((Encloses.bare "pre" _ (by decide) (by decide)).of_eq ?_) hcode
      apply String.toList_inj.mp
      simp
  | .blockQuote content => by
      refine ((blockParts_refers content).map fun inner refs hinner => ?_).of rfl (.intro trivial)
      refine .encloses ((Encloses.bare "blockquote" _ (by decide) (by decide)).of_eq ?_)
        hinner.lines
      apply String.toList_inj.mp
      simp
  | .tagged content metadata => by
      refine ((blockParts_refers content).map fun inner refs hinner => ?_).of rfl (.intro trivial)
      refine .encloses ((encloses_tagged metadata _).of_eq ?_) hinner.lines
      apply String.toList_inj.mp
      simp
  | .list kind items => by
      refine ((itemParts_refers items).map fun inner refs hinner => ?_).of rfl (.intro trivial)
      rw [joinLines_between]
      exact .encloses (encloses_list kind _) hinner.between
  | .termList items => by
      refine ((termParts_refers items).map fun inner refs hinner => ?_).of rfl (.intro trivial)
      rw [joinLines_between]
      exact .encloses (.bare "dl" _ (by decide) (by decide)) hinner.between
  | .heading level text => by
      rw [blockHtml]
      split
      · next hlevel =>
        refine ((takeSlug_refers _).bind fun slug refs hrefs =>
          (inlinesHtml_refers text).map fun inner refs' hinner => ?_).of (by rw [Nat.zero_add]; rfl)
          fun h => ⟨hlevel, h.2⟩
        rw [hrefs]
        exact shows_headingText hlevel slug hinner.strip
      · exact .throw _
  | .rule => .pure shows_compositional.rule
  | .table _ rows => by
      refine ((rowParts_refers rows).map fun inner refs hinner => ?_).of rfl (.intro trivial)
      rw [joinLines_between]
      exact .encloses (.bare "table" _ (by decide) (by decide)) hinner.between
  | .figure content caption => by
      refine ((inlinesHtml_refers caption).bind fun text refs htext =>
        (blockParts_refers content).map fun inner refs' hinner => ?_).of (Nat.add_comm _ _)
        fun h => ⟨trivial, h.2, h.1⟩
      -- the caption is numbered first and stands last
      have hnewline := shows_compositional.newline
      have hlines := hnewline.append
        (hinner.joinLines.append (htext.strip.caption.append hnewline))
      rw [List.nil_append, List.append_nil] at hlines
      refine .encloses ((Encloses.bare "figure" _ (by decide) (by decide)).of_eq ?_)
        (hlines.perm List.perm_append_comm)
      apply String.toList_inj.mp
      simp
  | .defn kind content => by
      refine ((blockParts_refers content).map fun inner refs hinner => ?_).of rfl (.intro trivial)
      refine .encloses ((encloses_defn kind _).of_eq ?_) hinner.lines
      apply String.toList_inj.mp
      simp
  | .mathBlock tex => .pure (shows_compositional.mathBlock tex)
  | .foreign _ => .throw _

theorem blockParts_refers (bs : List Block) :
    Refers (blockParts bs) (blocksNotes bs) (blocksMadeOf Writable bs) (AllShow · · []) := by
  cases bs with
  | nil => exact .pure .nil
  | cons b rest =>
      refine (blockHtml_refers b).bind fun here refs hhere => ?_
      exact (blockParts_refers rest).map fun after refs' hafter => .consUnlessEmpty hhere hafter

theorem tightHtml_refers (bs : List Block) :
    Refers (tightHtml bs) (blocksNotes bs) (blocksMadeOf Writable bs) (Shows · · []) := by
  cases bs with
  | nil => exact .pure (.text (by decide))
  | cons b rest =>
      unfold tightHtml
      split
      · next content =>
        refine ((inlinesHtml_refers content).map fun inner refs hinner => ?_).of rfl
          fun h => ⟨⟨trivial, h⟩, trivial⟩
        exact hinner.strip
      · next content =>
        refine ((inlinesHtml_refers content).map fun inner refs hinner => ?_).of rfl
          fun h => ⟨⟨trivial, h⟩, trivial⟩
        exact hinner.strip
      · refine (blockHtml_refers b).bind fun here refs hhere => ?_
        refine (blockParts_refers rest).map fun after refs' hafter => ?_
        exact (AllShow.consUnlessEmpty hhere hafter).joinLines

theorem itemParts_refers (items : List ListItem) :
    Refers (itemParts items) (itemsNotes items) (itemsMadeOf Writable items) (AllShow · · []) := by
  cases items with
  | nil => exact .pure .nil
  | cons item rest =>
      obtain ⟨content, label⟩ := item
      refine ((labelHtml_refers label).bind fun label refs hlabel =>
        (tightHtml_refers content).bind fun inner refs' hinner =>
        (itemParts_refers rest).map fun after refs'' hafter => ?_).of (Nat.add_assoc _ _ _).symm
        fun h => ⟨h.2.1, h.1, h.2.2⟩
      rw [← List.append_assoc]
      refine .cons (.encloses ((Encloses.bare "li" _ (by decide) (by decide)).of_eq ?_)
        (hlabel.append hinner)) hafter
      apply String.toList_inj.mp
      simp

theorem labelHtml_refers : ∀ label : Option (List Inline),
    Refers (labelHtml label) (optionNotes label) (optionMadeOf Writable label) (Shows · · [])
  | none => .pure (.text (by decide))
  | some label => by
      refine (inlinesHtml_refers label).map fun inner refs hinner => ?_
      have hspan := Shows.encloses (.classed "span" "label" _ (by decide) (by decide) (by decide))
        hinner.strip
      have hspace : Shows " " [] [] := .text (by decide)
      have h := hspan.append hspace
      rw [List.append_nil] at h
      refine Eq.subst (motive := (Shows · refs [])) ?_ h
      apply String.toList_inj.mp
      simp

theorem termParts_refers (items : List TermItem) :
    Refers (termParts items) (termsNotes items) (termsMadeOf Writable items) (AllShow · · []) := by
  cases items with
  | nil => exact .pure .nil
  | cons item rest =>
      obtain ⟨term, content⟩ := item
      refine ((inlinesHtml_refers term).bind fun term refs hterm =>
        (tightHtml_refers content).bind fun inner refs' hinner =>
        (termParts_refers rest).map fun after refs'' hafter => ?_).of (Nat.add_assoc _ _ _).symm id
      exact .cons (.encloses (.bare "dt" _ (by decide) (by decide)) hterm.strip)
        (.cons (.encloses (.bare "dd" _ (by decide) (by decide)) hinner) hafter)

theorem cellsHtml_refers : ∀ cells : List TableCell,
    Refers (cellsHtml cells) (cellsNotes cells) (cellsMadeOf Writable cells) (Shows · · [])
  | [] => .pure (.text (by decide))
  | .mk content alignment rowSpan colSpan :: rest =>
      (tightHtml_refers content).bind fun inner _ hinner =>
        (cellsHtml_refers rest).map fun _ _ hafter =>
          (Shows.encloses (encloses_cell alignment rowSpan colSpan inner) hinner).append hafter

theorem rowParts_refers : ∀ rows : List (List TableCell),
    Refers (rowParts rows) (rowsNotes rows) (rowsMadeOf Writable rows) (AllShow · · [])
  | [] => .pure .nil
  | row :: rest =>
      (cellsHtml_refers row).bind fun _ _ hcells =>
        (rowParts_refers rest).map fun _ _ hafter =>
          .cons (.encloses (.bare "tr" _ (by decide) (by decide)) hcells) hafter

end

end Markup.Html
