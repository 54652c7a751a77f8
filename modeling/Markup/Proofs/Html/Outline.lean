import Mathlib.Data.List.Permutation
import Markup.Proofs.Html.Notes
import Markup.Proofs.Html.Unescape
import Markup.Proofs.Html.Walk

/-! # The headings and the references of a written document

The way through a document goes on through its notes: the loop over the queue meets the blocks of
every note, those inside further notes included (`NoteLoop.walked`).  So the writer has met every
block of the document once when it is done, and `render_landmarks` is the account of what the tags
of the output say: the slugs of all headings, and the numbers of all references in the order in
which they are read.

Two results follow.  No two headings of a document have the same id, wherever they stand
(`headingIds_unique`).  And the references are numbered in the order in which they are read exactly
if no figure has notes both in its content and in its caption (`references_inOrder_iff`). -/

namespace Markup.Html

/-! ### The loop -/

/-- The loop over the notes meets all that is inside the notes of the queue. -/
theorem NoteLoop.walked {w w' : Writer} {i : Nat} {items : List String}
    (h : NoteLoop w i items w') :
    ∃ new met m, Walked w w' new met m ∧ met.Perm ((w.notes.drop i).flatMap blocksWithin) ∧
      AllBear items m := by
  induction h with
  | @done w i hend =>
      rw [List.drop_eq_nil_of_le hend]
      exact ⟨[], [], {}, walked_nil w, .refl _, .nil⟩
  | @turn w w₁ _ i content body items hnote hbody hrest ih =>
      obtain ⟨new, met, m, hwalked, hwithin, hbears⟩ := tightHtml_walks content hbody
      obtain ⟨new', met', m', hwalked', hmet', hitems⟩ := ih
      refine ⟨new ++ new', met ++ met', m ++ m', hwalked.trans hwalked', ?_,
        .cons (bears_noteItem _ hbears) hitems⟩
      obtain ⟨hi, hget⟩ := List.getElem?_eq_some_iff.mp hnote
      have hnext : i + 1 ≤ w.notes.length := hi
      rw [hwalked.queue, List.drop_append_of_le_length hnext, List.flatMap_append] at hmet'
      rw [List.drop_eq_getElem_cons hi, hget, List.flatMap_cons]
      -- what this note queues is met later on
      calc (met ++ met').Perm (met ++
            (new.flatMap blocksWithin ++ (w.notes.drop (i + 1)).flatMap blocksWithin)) :=
            (hmet'.trans List.perm_append_comm).append_left met
        _ = met ++ new.flatMap blocksWithin ++ (w.notes.drop (i + 1)).flatMap blocksWithin :=
            (List.append_assoc _ _ _).symm
        List.Perm _ (blocksWithin content ++ (w.notes.drop (i + 1)).flatMap blocksWithin) :=
            hwithin.append_right _

theorem bears_notesList {items : List String} {m : Landmarks} (h : AllBear items m) :
    Bears (notesList items) m := by
  unfold notesList
  split
  · next hempty =>
    rw [List.isEmpty_iff.mp hempty] at h
    cases h
    exact .text (by decide)
  · rw [joinLines_between]
    exact .encloses (.classed "ol" "footnotes" _ (by decide) (by decide) (by decide)) h.between

/-! ### Documents -/

theorem exists_of_render {o : Options} {d : Document} {html : String}
    (h : render o d = .ok html) :
    ∃ body notes w', bodyHtml d.content {} = .ok ((body, notes), w') ∧
      html = pageHtml o d.metadata body notes := by
  unfold render at h
  cases hrun : bodyHtml d.content {} with
  | error e =>
      rw [StateT.run, hrun] at h
      cases h
  | ok r =>
      rw [StateT.run, hrun] at h
      exact ⟨r.1.1, r.1.2, r.2, rfl, (Except.ok.inj h).symm⟩

/-- The account of a body and its notes: all blocks were met, and every note was queued. -/
theorem bodyHtml_walked {content : List Block} {body notes : String} {w' : Writer}
    (h : bodyHtml content {} = .ok ((body, notes), w')) :
    ∃ new met m m', Walked {} w' new met (m ++ m') ∧ met.Perm (blocksWithin content) ∧
      new.length = blocksNotes content ∧ Bears body m ∧ Bears notes m' := by
  obtain ⟨parts, w, items, hparts, hwritten, rfl, rfl, hsize, -⟩ := bodyHtml_loop h
  obtain ⟨new, met, m, hwalked, hwithin, hbody⟩ := blockParts_walks content hparts
  obtain ⟨new', met', m', hwalked', hmet', hitems⟩ := hwritten.loop.walked
  have hboth := hwalked.trans hwalked'
  have hqueue : w.notes = new := hwalked.queue
  refine ⟨new ++ new', met ++ met', m, m', hboth, ?_, ?_, hbody.joinLines, bears_notesList hitems⟩
  · rw [List.drop_zero, hqueue] at hmet'
    exact (hmet'.append_left met).trans hwithin
  · have htotal : w'.notes = new ++ new' := hboth.queue
    rw [← htotal, hwritten.size, List.drop_zero, hsize, Nat.zero_add]

/-- The numbers that a page mentions. -/
theorem shows_of_bodyHtml (o : Options) {d : Document} {body notes : String} {w' : Writer}
    (h : bodyHtml d.content {} = .ok ((body, notes), w')) :
    Shows (pageHtml o d.metadata body notes) (List.range' 1 (blocksNotes d.content))
      (List.range' 1 (blocksNotes d.content)) := by
  obtain ⟨parts, w, items, -, hwritten, rfl, rfl, hsize, hbody, -⟩ := bodyHtml_loop h
  have hlength := hwritten.size
  obtain ⟨new, hnew, hitems⟩ := hwritten.shows
  rw [List.drop_zero, hsize] at hlength hitems
  have hpage := shows_pageHtml o d.metadata hbody.joinLines (shows_notesList hitems)
  rwa [Nat.add_comm w.notes.length 1, List.range'_append_1, ← List.length_append, ← hnew, hlength,
    Nat.zero_add, List.nil_append] at hpage

/-- The account of a document that was written.  Its blocks, in the order in which they were `met`,
say which slugs its headings have and whether the numbers of its references are read in order. -/
theorem render_landmarks {o : Options} {d : Document} {html : String}
    (h : render o d = .ok html) :
    ∃ tags met refs, cut html = some tags ∧ met.Perm d.blocks ∧
      Numbering 0 (blocksNotes d.content) met refs ∧
      Marks tags ⟨slugsFor [] (met.filterMap Block.headingText?), refs⟩ ∧
      Mentions tags (List.range' 1 (blocksNotes d.content))
        (List.range' 1 (blocksNotes d.content)) ∧
      ∀ n ∈ refs, (noteReference n).toList <:+: html.toList := by
  obtain ⟨body, notes, w', hrun, rfl⟩ := exists_of_render h
  obtain ⟨new, met, m, m', hwalked, hmet, hsize, hbody, hnotes⟩ := bodyHtml_walked hrun
  obtain ⟨-, hspelled, tags, hreads, hmarks⟩ := bears_pageHtml o d.metadata hbody hnotes
  obtain ⟨-, tags', hreads', hmentions⟩ := shows_of_bodyHtml o hrun
  have hnumbers := hwalked.numbers
  rw [hsize] at hnumbers
  rw [hreads'.unique hreads] at hmentions
  have hslugs : (m ++ m').slugs = slugsFor [] (met.filterMap Block.headingText?) := hwalked.heads
  refine ⟨tags, met, (m ++ m').refs, hreads.cut_eq, hmet, hnumbers, ?_, hmentions, hspelled⟩
  rw [← hslugs]
  exact hmarks

/-! ### Headings -/

/-- Slugs that are taken one after another stay different when they are escaped. -/
theorem nodup_headingIds {tags : List (List Char)} {texts : List String} {refs : List Nat}
    (h : Marks tags ⟨slugsFor [] texts, refs⟩) : (headingIds tags).Nodup := by
  rw [h.heads]
  exact (nodup_slugsFor [] texts).1.map escape_injective

/-- **Heading ids are unique.**  Whatever slugs are taken, the search for a number comes to its end
and gives the slug that a heading takes.  In a document that is written the headings, wherever they
stand and in notes too, have the slugs that their texts take one after another, and no two of their
ids are the same, neither as they are written nor as they are read back. -/
theorem headingIds_unique (o : Options) (d : Document) :
    (∀ taken slug, ∃ n, SuffixSearch taken slug 2 n ∧
      freshSlug taken slug = if slug ∈ taken then numbered slug n else slug) ∧
    ∀ html, render o d = .ok html → ∃ tags texts, cut html = some tags ∧
      texts.Perm d.headings ∧ headingIds tags = (slugsFor [] texts).map escape ∧
      (headingIds tags).Nodup ∧ ((headingIds tags).map unescape).Nodup := by
  refine ⟨freshSlug_search, fun html h => ?_⟩
  obtain ⟨tags, met, refs, hcut, hmet, -, hmarks, -, -⟩ := render_landmarks h
  have hread : (headingIds tags).map unescape = slugsFor [] (met.filterMap Block.headingText?) := by
    rw [hmarks.heads, List.map_map]
    exact List.map_id'' unescape_escape _
  refine ⟨tags, met.filterMap Block.headingText?, hcut, hmet.filterMap _, hmarks.heads,
    nodup_headingIds hmarks, ?_⟩
  rw [hread]
  exact (nodup_slugsFor [] _).1

/-- Headings of one text in a quotation, an item, a cell and a note, and two whose own texts look
like a numbered slug. -/
def repeatedHeadings : Document where
  content := [
    .heading 1 [.text "a-2"], .blockQuote [.heading 2 [.text "A"]],
    .list .unordered [.mk [.heading 3 [.text "a", .footnote [.heading 4 [.text "a"]]]] none],
    .table [] [[.mk [.heading 5 [.text "a"]] none 1 1]], .figure [.heading 6 [.text "a 2"]] []]

theorem headingIds_unique_repeated :
    ∃ html tags, render {} repeatedHeadings = .ok html ∧ cut html = some tags ∧
      (headingIds tags).length = 6 ∧ (headingIds tags).Nodup := by
  have hformed : repeatedHeadings.WellFormed := by
    simp [repeatedHeadings, Document.WellFormed, blocksMadeOf, Block.MadeOf, Inline.MadeOf,
      inlinesMadeOf, rowsMadeOf, cellsMadeOf, itemsMadeOf, optionMadeOf, Writable]
  obtain ⟨html, hrender, -⟩ := exists_flow_render {} hformed
  obtain ⟨tags, texts, hcut, htexts, hids, hnodup, -⟩ :=
    (headingIds_unique {} repeatedHeadings).2 html hrender
  refine ⟨html, tags, hrender, hcut, ?_, hnodup⟩
  rw [hids, List.length_map, length_slugsFor, htexts.length_eq]
  rfl

/-! ### References -/

theorem referenceTo_injective : Function.Injective referenceTo := by
  intro n k h
  have hid : numbered "fn-link" n = numbered "fn-link" k := (Prod.mk.inj h).2
  exact (numbered_inj.mp hid).2

/-- **When references are read in order.**  In a document that is written each number from one to
the number of its notes belongs to one reference, which shows it.  Read from start to end, the
references have the numbers one, two and so on exactly if no figure of the document, in notes too,
has notes both in its content and in its caption. -/
theorem references_inOrder_iff (o : Options) {d : Document} {html : String}
    (h : render o d = .ok html) :
    ∃ tags, cut html = some tags ∧
      (references tags).Perm ((List.range' 1 (blocksNotes d.content)).map referenceTo) ∧
      (∀ n ∈ List.range' 1 (blocksNotes d.content), (noteReference n).toList <:+: html.toList) ∧
      (references tags = (List.range' 1 (blocksNotes d.content)).map referenceTo ↔
        ∀ b ∈ d.blocks, b.ReadsInOrder) := by
  obtain ⟨tags, met, refs, hcut, hmet, hnumbers, hmarks, hmentions, hspelled⟩ := render_landmarks h
  refine ⟨tags, hcut, hmentions.refers, fun n hn => ?_, ?_⟩
  · exact hspelled n (hnumbers.complete.mem_iff.mpr hn)
  · rw [hmarks.refers, (List.map_injective_iff.mpr referenceTo_injective).eq_iff]
    refine hnumbers.ordered.trans ⟨fun hall b hb => ?_, fun hall b hb => ?_⟩
    · exact hall b (hmet.mem_iff.mpr hb)
    · exact hall b (hmet.mem_iff.mp hb)

/-- Notes in a label, in an item, in two captions, and inside a note. -/
def orderedNotes : Document where
  content := [
    .list .ordered [.mk [.par [.footnote []]] (some [.footnote [.figure [] [.footnote []]]])],
    .figure [.rule] [.footnote []]]

theorem references_inOrder_iff_ordered :
    ∃ html tags, render {} orderedNotes = .ok html ∧ cut html = some tags ∧
      references tags = [1, 2, 3, 4].map referenceTo := by
  have hformed : orderedNotes.WellFormed := by
    simp [orderedNotes, Document.WellFormed, blocksMadeOf, Block.MadeOf, Inline.MadeOf,
      inlinesMadeOf, itemsMadeOf, optionMadeOf, Writable]
  have hblocks : ∀ b ∈ orderedNotes.blocks, b.ReadsInOrder := by
    simp [orderedNotes, Document.blocks, blocksWithin, Block.inside, itemsWithin, optionWithin,
      inlinesWithin, Inline.within, Block.ReadsInOrder, blocksNotes, blockNotes]
  obtain ⟨html, hrender, -⟩ := exists_flow_render {} hformed
  obtain ⟨tags, hcut, -, -, hordered⟩ := references_inOrder_iff {} hrender
  exact ⟨html, tags, hrender, hcut, hordered.mpr hblocks⟩

/-- A figure with a note in its content and one in its caption. -/
def captionedFigure : Document where
  content := [.figure [.par [.footnote []]] [.footnote []]]

/-- The note of the caption is the first one, but its reference is read last. -/
theorem captionedFigure_disordered :
    ∃ html tags, render {} captionedFigure = .ok html ∧ cut html = some tags ∧
      references tags = [2, 1].map referenceTo := by
  have hformed : captionedFigure.WellFormed := by
    simp [captionedFigure, Document.WellFormed, blocksMadeOf, Block.MadeOf, Inline.MadeOf,
      inlinesMadeOf, Writable]
  obtain ⟨html, hrender, -⟩ := exists_flow_render {} hformed
  obtain ⟨tags, met, refs, hcut, hmet, hnumbers, hmarks, -, -⟩ := render_landmarks hrender
  refine ⟨html, tags, hrender, hcut, ?_⟩
  have hfigure : ¬ Block.ReadsInOrder (.figure [.par [.footnote []]] [.footnote []]) := by
    simp [Block.ReadsInOrder, blocksNotes, blockNotes, inlinesNotes, inlineNotes]
  have hmem : .figure [.par [.footnote []]] [.footnote []] ∈ captionedFigure.blocks :=
    List.mem_cons_self
  have hne : refs ≠ [1, 2] := fun heq =>
    hfigure (hnumbers.ordered.mp heq _ (hmet.mem_iff.mpr hmem))
  have hrefs : refs = [1, 2] ∨ refs = [2, 1] := List.perm_pair.mp hnumbers.complete
  rw [hmarks.refers, hrefs.resolve_left hne]

end Markup.Html
