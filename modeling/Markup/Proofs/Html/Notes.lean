import Markup.Proofs.Html.Nesting
import Markup.Proofs.Html.Queue

/-! # References and notes match

The notes follow the body, and while they are written the queue of notes grows.  `NoteLoop` is that
loop with no bound on its turns: it ends when its place is behind the queue, and not before.  A turn
takes one note off what is still to be written and queues the notes inside it, so that the number of
notes still to be written, those inside them included, goes down by one with every turn
(`noteParts_loop`).

`render_notes` is the account for a document that was written: the loop ends, after as many turns
as the document has notes, and the tags of the output mention every number from one on exactly once
in a reference and exactly once as a note, the notes in order.  The same account shows that a
document that was written is well formed (`wellFormed_of_bodyHtml`). -/

namespace Markup.Html

/-! ### The loop -/

/-- A run of the loop over the notes from place `i` of the queue on, until no note is left. -/
inductive NoteLoop : Writer → Nat → List String → Writer → Prop
  | done {w : Writer} {i : Nat} (h : w.notes.length ≤ i) : NoteLoop w i [] w
  | turn {w w' w'' : Writer} {i : Nat} {content : List Block} {body : String}
      {items : List String} (hnote : w.notes[i]? = some content)
      (hbody : tightHtml content w = .ok (body, w')) (hrest : NoteLoop w' (i + 1) items w'') :
      NoteLoop w i (noteItem (i + 1) body :: items) w''

/-- The account of a run of the loop: every note takes one turn and has been in the queue, and those
that were queued on the way are referred to. -/
structure NotesWritten (w : Writer) (i : Nat) (items : List String) (w' : Writer) : Prop where
  loop : NoteLoop w i items w'
  turns : items.length = queuedNotes (w.notes.drop i)
  size : w'.notes.length = i + queuedNotes (w.notes.drop i)
  shows : ∃ new, w'.notes = w.notes ++ new ∧
    AllShow items (List.range' (w.notes.length + 1) new.length)
      (List.range' (i + 1) (queuedNotes (w.notes.drop i)))
  made : ∀ note ∈ w'.notes.drop i, blocksMadeOf Writable note

/-- With nothing left in the queue nothing is written. -/
theorem notesWritten_nil {w : Writer} {i : Nat} (h : w.notes.length = i) :
    NotesWritten w i [] w := by
  have hdrop : w.notes.drop i = [] := List.drop_eq_nil_of_le (Nat.le_of_eq h)
  refine ⟨.done (Nat.le_of_eq h), ?_, ?_, ⟨[], ?_, ?_⟩, ?_⟩
  · rw [hdrop]
    rfl
  · rw [hdrop, h]
    rfl
  · rw [List.append_nil]
  · rw [hdrop]
    exact .nil
  · rw [hdrop]
    intro note hnote
    cases hnote

/-- A note and the notes inside it make room for each other: what is left goes down by one. -/
theorem queuedNotes_turn {queue new : List (List Block)} {i : Nat} {content : List Block}
    (hnote : queue[i]? = some content) (hsize : queuedNotes new = blocksNotes content) :
    queuedNotes (queue.drop i) = queuedNotes ((queue ++ new).drop (i + 1)) + 1 := by
  obtain ⟨hi, hget⟩ := List.getElem?_eq_some_iff.mp hnote
  have hnext : i + 1 ≤ queue.length := hi
  rw [List.drop_append_of_le_length hnext, queuedNotes_append, List.drop_eq_getElem_cons hi,
    queuedNotes, hget, hsize]
  omega

/-- One turn: the note at place `i` is written, and the run goes on behind it. -/
theorem NotesWritten.turn {w w' w'' : Writer} {i : Nat} {content : List Block} {body : String}
    {items : List String} (hnote : w.notes[i]? = some content)
    (hbody : tightHtml content w = .ok (body, w')) (h : NotesWritten w' (i + 1) items w'') :
    NotesWritten w i (noteItem (i + 1) body :: items) w'' := by
  obtain ⟨new, hnew, hsize, hshows, hmade⟩ := tightHtml_refers content hbody
  obtain ⟨new', hnew', hitems⟩ := h.shows
  obtain ⟨hi, hget⟩ := List.getElem?_eq_some_iff.mp hnote
  have hnext : i + 1 ≤ w.notes.length := hi
  have hleft := queuedNotes_turn hnote hsize
  rw [← hnew] at hleft
  have hqueue : w''.notes = w.notes ++ (new ++ new') := by rw [hnew', hnew, List.append_assoc]
  refine ⟨.turn hnote hbody h.loop, ?_, ?_, ⟨new ++ new', hqueue, ?_⟩, ?_⟩
  · rw [List.length_cons, h.turns, hleft]
  · rw [h.size, hleft]
    omega
  · rw [hleft, List.range'_succ, List.length_append, ← List.range'_append_1]
    have hplace : w'.notes.length + 1 = w.notes.length + 1 + new.length := by
      rw [hnew, List.length_append]
      omega
    rw [hplace] at hitems
    exact .cons (shows_noteItem (i + 1) hshows) hitems
  · -- the notes inside this one are further behind in the queue
    have hbehind := h.made
    rw [hqueue, List.drop_append_of_le_length hnext] at hbehind
    have hcontent := hmade fun note hmem =>
      hbehind note (List.mem_append_right _ (List.mem_append_left _ hmem))
    intro note hmem
    rw [hqueue, List.drop_append_of_le_length (Nat.le_of_succ_le hnext),
      List.drop_eq_getElem_cons hi, hget] at hmem
    rcases List.mem_cons.mp hmem with rfl | hmem
    · exact hcontent
    · exact hbehind note hmem

/-- With as many turns as there are notes left, the loop runs to its end. -/
theorem noteParts_loop {turns i : Nat} {w w' : Writer} {items : List String}
    (hi : i ≤ w.notes.length) (hturns : queuedNotes (w.notes.drop i) ≤ turns)
    (h : noteParts turns i w = .ok (items, w')) : NotesWritten w i items w' := by
  induction turns generalizing i w items with
  | zero =>
      obtain ⟨rfl, rfl⟩ : [] = items ∧ w = w' := by cases h; exact ⟨rfl, rfl⟩
      have hlength : w.notes.length ≤ i := by
        refine Nat.le_of_not_lt fun hlt => ?_
        rw [List.drop_eq_getElem_cons hlt, queuedNotes] at hturns
        omega
      exact notesWritten_nil (Nat.le_antisymm hlength hi)
  | succ turns ih =>
      rw [noteParts] at h
      obtain ⟨_, _, ⟨⟩, h⟩ := exists_of_bind h
      cases hnote : w.notes[i]? with
      | none =>
          rw [hnote] at h
          obtain ⟨rfl, rfl⟩ : [] = items ∧ w = w' := by cases h; exact ⟨rfl, rfl⟩
          exact notesWritten_nil (Nat.le_antisymm (List.getElem?_eq_none_iff.mp hnote) hi)
      | some content =>
          rw [hnote] at h
          obtain ⟨body, w₁, hbody, h⟩ := exists_of_bind h
          obtain ⟨rest, w₂, hrest, h⟩ := exists_of_bind h
          cases h
          obtain ⟨new, hnew, hsize, -⟩ := tightHtml_refers content hbody
          have hleft := queuedNotes_turn hnote hsize
          rw [← hnew] at hleft
          obtain ⟨hlt, -⟩ := List.getElem?_eq_some_iff.mp hnote
          have hlt₁ : i + 1 ≤ w₁.notes.length := by
            rw [hnew, List.length_append]
            omega
          exact .turn hnote hbody (ih hlt₁ (by omega) hrest)

/-! ### Documents -/

/-- The notes as a list, if there are any. -/
def notesList (items : List String) : String :=
  if items.isEmpty then ""
  else joinLines (["<ol class=\"footnotes\">"] ++ items ++ ["</ol>"])

theorem notesHtml_loop {turns : Nat} {w w' : Writer} {html : String}
    (hturns : queuedNotes w.notes ≤ turns) (h : notesHtml turns w = .ok (html, w')) :
    ∃ items, NotesWritten w 0 items w' ∧ html = notesList items := by
  rw [notesHtml] at h
  obtain ⟨_, _, ⟨⟩, h⟩ := exists_of_bind h
  split at h
  · next hempty =>
    cases h
    exact ⟨[], notesWritten_nil (by simpa using hempty), rfl⟩
  · next hne =>
    obtain ⟨items, _, hitems, h⟩ := exists_of_bind h
    cases h
    have hwritten := noteParts_loop (Nat.zero_le _) hturns hitems
    refine ⟨items, hwritten, ?_⟩
    rw [notesList, if_neg]
    intro hempty
    rw [List.isEmpty_iff.mp hempty] at hwritten
    cases hwritten.loop with
    | done hend => exact hne (by simpa using hend)

theorem shows_notesList {items : List String} {refs notes : List Nat}
    (h : AllShow items refs notes) : Shows (notesList items) refs notes := by
  unfold notesList
  split
  · next hempty =>
    rw [List.isEmpty_iff.mp hempty] at h
    cases h
    exact .text (by decide)
  · rw [joinLines_between]
    exact .encloses (.classed "ol" "footnotes" _ (by decide) (by decide) (by decide)) h.between

/-- The account of a body and its notes. -/
theorem bodyHtml_loop {content : List Block} {body notes : String} {w' : Writer}
    (h : bodyHtml content {} = .ok ((body, notes), w')) :
    ∃ parts w items, blockParts content {} = .ok (parts, w) ∧ NotesWritten w 0 items w' ∧
      body = joinLines parts ∧ notes = notesList items ∧
      queuedNotes w.notes = blocksNotes content ∧
      AllShow parts (List.range' 1 w.notes.length) [] ∧
      ((∀ note ∈ w.notes, blocksMadeOf Writable note) → blocksMadeOf Writable content) := by
  obtain ⟨parts, w, hparts, h⟩ := exists_of_bind h
  obtain ⟨notes', w₁, hnotes, h⟩ := exists_of_bind h
  cases h
  obtain ⟨new, hnew, hsize, hshows, hmade⟩ := blockParts_refers content hparts
  have hqueue : w.notes = new := hnew
  rw [← hqueue] at hsize hshows hmade
  obtain ⟨items, hwritten, hlist⟩ := notesHtml_loop (Nat.le_of_eq hsize) hnotes
  exact ⟨parts, w, items, hparts, hwritten, rfl, hlist, hsize, hshows, hmade⟩

/-- Only well-formed documents are written. -/
theorem wellFormed_of_bodyHtml {d : Document} {r : (String × String) × Writer}
    (h : bodyHtml d.content {} = .ok r) : d.WellFormed := by
  obtain ⟨parts, w, items, -, hwritten, -, -, -, -, hmade⟩ := bodyHtml_loop h
  obtain ⟨new, hnew, -⟩ := hwritten.shows
  refine hmade fun note hnote => hwritten.made note ?_
  rw [List.drop_zero, hnew]
  exact List.mem_append_left new hnote

/-- **References and notes match**: in a document that is written the loop over the notes comes to
its end, after as many turns as there are notes anywhere in the document.  The tags of what is
written refer to each of the numbers from one to that number once, and list it once as a note with
a link back, the notes in this order; they have no other references and no other notes. -/
theorem render_notes (o : Options) {d : Document} {html : String} (h : render o d = .ok html) :
    (∃ parts w items w', blockParts d.content {} = .ok (parts, w) ∧ NoteLoop w 0 items w' ∧
      items.length = blocksNotes d.content ∧
      html = pageHtml o d.metadata (joinLines parts) (notesList items)) ∧
    ∃ tags, cut html = some tags ∧
      Mentions tags (List.range' 1 (blocksNotes d.content))
        (List.range' 1 (blocksNotes d.content)) := by
  obtain ⟨⟨⟨body, notes⟩, w'⟩, hrun, rfl⟩ : ∃ r, bodyHtml d.content {} = .ok r ∧
      pageHtml o d.metadata r.1.1 r.1.2 = html := by
    unfold render at h
    cases hrun : bodyHtml d.content {} with
    | error e =>
        rw [StateT.run, hrun] at h
        cases h
    | ok r =>
        rw [StateT.run, hrun] at h
        exact ⟨r, rfl, Except.ok.inj h⟩
  obtain ⟨parts, w, items, hparts, hwritten, rfl, rfl, hsize, hbody, -⟩ := bodyHtml_loop hrun
  have hlength := hwritten.size
  have hturns := hwritten.turns
  obtain ⟨new, hnew, hitems⟩ := hwritten.shows
  rw [List.drop_zero, hsize] at hlength hturns hitems
  refine ⟨⟨parts, w, items, w', hparts, hwritten.loop, hturns, rfl⟩, ?_⟩
  have hpage := shows_pageHtml o d.metadata hbody.joinLines (shows_notesList hitems)
  rw [Nat.add_comm w.notes.length 1, List.range'_append_1, ← List.length_append, ← hnew, hlength,
    Nat.zero_add, List.nil_append] at hpage
  obtain ⟨-, tags, hreads, hmentions⟩ := hpage
  exact ⟨tags, hreads.cut_eq, hmentions⟩

/-- Notes in a label, in a term and in a caption, notes inside notes, and a blank paragraph. -/
def notedDocument : Document where
  content := [
    .figure [.par [.text " "], .list .ordered [.mk [.par [.footnote []]] (some [.footnote [
      .termList [.mk [.footnote [.plain [.footnote []]]] []]]])]] [.footnote [.rule]],
    .table [] [[.mk [.heading 2 [.footnote [.par [.link "#fn-1" none none .url]]]] none 1 1]]]

theorem render_notes_nested :
    ∃ html, render ⟨true, none, []⟩ notedDocument = .ok html ∧
      (∃ w items w', NoteLoop w 0 items w' ∧ items.length = 6) ∧
      ∃ tags, cut html = some tags ∧ Mentions tags [1, 2, 3, 4, 5, 6] [1, 2, 3, 4, 5, 6] := by
  have hformed : notedDocument.WellFormed := by
    simp [notedDocument, Document.WellFormed, blocksMadeOf, Block.MadeOf, Inline.MadeOf,
      inlinesMadeOf, rowsMadeOf, cellsMadeOf, itemsMadeOf, termsMadeOf, optionMadeOf, Writable]
  obtain ⟨html, hrender, -⟩ := exists_flow_render ⟨true, none, []⟩ hformed
  obtain ⟨⟨_, w, items, w', -, hloop, hturns, -⟩, hmentions⟩ := render_notes _ hrender
  exact ⟨html, hrender, ⟨w, items, w', hloop, hturns⟩, hmentions⟩

end Markup.Html
