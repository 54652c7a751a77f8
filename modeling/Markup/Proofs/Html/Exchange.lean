import Markup.Proofs.Doc.Replaced
import Markup.Proofs.Html.Altered
import Markup.Proofs.Html.Notes

/-! # One list of blocks written in the place of another

Suppose that of two lists of blocks each can be written where the other one can, to the same text or
always to another one (`Exchange`).  Then this is so of every document that has the one in the place
of the other, at any depth (`Exchange.render`).

The writer goes through the two documents in the same steps.  Where it comes by the place in
question, what it writes differs or not as the blocks there do.  Where that place is inside a note,
what it writes is the same for now, and the queues are the same but for that note, which is written
in its turn (`noteParts_alters`). -/

namespace Markup.Html

/-! ### Blocks that stand in for others -/

/-- Blocks as they are written in a setting. -/
def settingHtml : Setting → List Block → Render String
  | .lines, bs => blockParts bs >>= fun parts => Pure.pure (joinLines parts)
  | .tight, bs => tightHtml bs

theorem settingHtml_blind : ∀ (t : Setting) (bs : List Block), Blind (settingHtml t bs)
  | .lines, bs => (blockParts_blind bs).map
  | .tight, bs => tightHtml_blind bs

/-- In the setting `s` one of two lists of blocks can be written where the other one can: to the
same text, or always to another one. -/
structure Exchange (s : Setting) (old new : List Block) (more : Bool) : Prop where
  notes : blocksNotes new = blocksNotes old
  html : Tracks (Differ more) (settingHtml s old) (settingHtml s new)

section tree

variable {s : Setting} {old new : List Block} {more : Bool}

theorem addNote_alters {content content' : List Block}
    (h : BlocksReplaced s old new .tight content content') :
    Alters (BlocksReplaced s old new .tight) (fun _ _ => False) (addNote content)
      (addNote content') := by
  rintro w _ _ ⟨⟩
  refine ⟨_, [content], [content'], rfl, .inr ⟨rfl, .head h⟩, fun v hv => ?_⟩
  change Except.ok ((v.notes ++ [content']).length, _) =
    Except.ok ((w.notes ++ [content]).length, _)
  rw [List.length_append, List.length_append, hv.2, ← hv.1]
  rfl

mutual

theorem inlineHtml_alters : ∀ {i i' : Inline}, Inline.Replaced s old new i i' →
    Alters (BlocksReplaced s old new .tight) (fun _ _ => False) (inlineHtml i) (inlineHtml i')
  | _, _, .styled h | _, _, .quote h | _, _, .link h =>
      (inlinesHtml_alters h).map fun _ _ => False.elim
  | _, _, .footnote h => (addNote_alters h).map fun _ _ => False.elim

theorem inlinesHtml_alters : ∀ {run run' : List Inline}, RunReplaced s old new run run' →
    Alters (BlocksReplaced s old new .tight) (fun _ _ => False) (inlinesHtml run)
      (inlinesHtml run')
  | _, _, .head h => (inlineHtml_alters h).before (inlinesHtml_blind _) fun _ _ _ => False.elim
  | _, _, .tail h =>
      .behind (inlineHtml_blind _) fun _ => (inlinesHtml_alters h).map fun _ _ => False.elim

end

/-- What is written of blocks on lines of their own. -/
theorem Alters.within {β : Type} {S : β → β → Prop} {bs bs' : List Block} {f : String → β}
    (h : Alters (BlocksReplaced s old new .tight) (Differ more) (settingHtml .lines bs)
      (settingHtml .lines bs')) (hf : ∀ a b, Differ more a b → S (f a) (f b)) :
    Alters (BlocksReplaced s old new .tight) S
      (blockParts bs >>= fun inner => Pure.pure (f (joinLines inner)))
      (blockParts bs' >>= fun inner => Pure.pure (f (joinLines inner))) := by
  have hmap := h.map hf
  rw [settingHtml, settingHtml, bind_assoc, bind_assoc] at hmap
  simp only [pure_bind] at hmap
  exact hmap

theorem isLone_cons_cons (b c : Block) (rest : List Block) : isLone (b :: c :: rest) = false := by
  cases b <;> rfl

/-- Blocks without the tags of a lone paragraph, one of which is altered. -/
theorem tightHtml_alters {bs bs' : List Block} (h : OneReplaced s old new bs bs')
    (hparts : Alters (BlocksReplaced s old new .tight) (OneOff (Differ more)) (blockParts bs)
      (blockParts bs')) :
    Alters (BlocksReplaced s old new .tight) (Differ more) (tightHtml bs) (tightHtml bs') := by
  have hlines (hbs : isLone bs = false) (hbs' : isLone bs' = false) :
      Alters (BlocksReplaced s old new .tight) (Differ more) (tightHtml bs) (tightHtml bs') := by
    rw [tightHtml_of_not_isLone hbs, tightHtml_of_not_isLone hbs']
    exact hparts.map fun _ _ hoff => hoff.joinLines
  cases h with
  | @head b b' rest hb =>
      cases rest with
      | nil =>
          cases hb with
          | par hrun | plain hrun => exact (inlinesHtml_alters hrun).inert fun _ => .pure _
          | _ => exact hlines rfl rfl
      | cons c rest => exact hlines (isLone_cons_cons _ _ _) (isLone_cons_cons _ _ _)
  | tail hrest => cases hrest <;> exact hlines (isLone_cons_cons _ _ _) (isLone_cons_cons _ _ _)

mutual

theorem blockHtml_alters (he : Exchange s old new more) : ∀ {b b' : Block},
    Block.Replaced s old new b b' →
    Alters (BlocksReplaced s old new .tight) (Kept more) (blockHtml b) (blockHtml b')
  | _, _, .plain h | _, _, .codeBlock h => (inlinesHtml_alters h).inert fun _ => .pure _
  | _, _, .par h => by
      obtain ⟨hrun, hrun'⟩ := h.not_blank
      rw [blockHtml, blockHtml, hrun, hrun']
      exact (inlinesHtml_alters h).inert fun _ => .pure _
  | _, _, .blockQuote h | _, _, .tagged h | _, _, .defn h =>
      (settingHtml_alters he h).within fun _ _ hdiffer => (hdiffer.append_left _).kept (by decide)
  | _, _, .list h =>
      (itemParts_alters he h).map fun _ _ hoff => hoff.kept _ (isEmpty_append_right _ (by decide))
  | _, _, .termList h => (termParts_alters he h).map fun _ _ hoff => hoff.kept _ (by decide)
  | _, _, .heading h => by
      rw [blockHtml, blockHtml, h.plainText_eq]
      split
      · exact .behind (takeSlug_blind _) fun _ => (inlinesHtml_alters h).inert fun _ => .pure _
      · exact .throw _
  | _, _, .table h => (rowParts_alters he h).map fun _ _ hoff => hoff.kept _ (by decide)
  | _, _, .figure h =>
      .behind (inlinesHtml_blind _) fun _ => (settingHtml_alters he h).within fun _ _ hdiffer =>
        (hdiffer.between _ _).kept (by decide)
  | _, _, .caption h => (inlinesHtml_alters h).inert fun _ => (blockParts_blind _).map

theorem settingHtml_alters (he : Exchange s old new more) : ∀ {t : Setting} {bs bs' : List Block},
    BlocksReplaced s old new t bs bs' →
    Alters (BlocksReplaced s old new .tight) (Differ more) (settingHtml t bs) (settingHtml t bs')
  | _, _, _, .here => .of_tracks he.html (settingHtml_blind _ _) (settingHtml_blind _ _)
  | .lines, _, _, .inside h => (blockParts_alters he h).map fun _ _ hoff => hoff.joinLines
  | .tight, _, _, .inside h => tightHtml_alters h (blockParts_alters he h)

theorem blockParts_alters (he : Exchange s old new more) : ∀ {bs bs' : List Block},
    OneReplaced s old new bs bs' →
    Alters (BlocksReplaced s old new .tight) (OneOff (Differ more)) (blockParts bs) (blockParts bs')
  | _, _, .head h => by
      rw [blockParts, blockParts]
      refine (blockHtml_alters he h).before (blockParts_blind _) fun s t after hkept => ?_
      rw [hkept.left, hkept.right]
      exact .head hkept.differ
  | _, _, .tail h => by
      rw [blockParts, blockParts]
      refine .behind (blockHtml_blind _) fun here => (blockParts_alters he h).map fun _ _ hoff => ?_
      split
      · exact hoff
      · exact .tail hoff

theorem itemParts_alters (he : Exchange s old new more) : ∀ {items items' : List ListItem},
    ItemsReplaced s old new items items' →
    Alters (BlocksReplaced s old new .tight) (OneOff (Differ more)) (itemParts items)
      (itemParts items')
  | _, _, .content h =>
      .behind (labelHtml_blind _) fun _ => (settingHtml_alters he h).before (itemParts_blind _)
        fun _ _ _ hdiffer => .head (hdiffer.between _ _)
  | _, _, .label h => by
      rw [itemParts, itemParts]
      refine ((inlinesHtml_alters h).map fun _ _ => False.elim).inert fun _ => ?_
      exact (tightHtml_blind _).bind fun _ => (itemParts_blind _).map
  | .mk _ _ :: _, _, .tail h =>
      .behind (labelHtml_blind _) fun _ => .behind (tightHtml_blind _) fun _ =>
        (itemParts_alters he h).map fun _ _ hoff => .tail hoff

theorem termParts_alters (he : Exchange s old new more) : ∀ {items items' : List TermItem},
    TermsReplaced s old new items items' →
    Alters (BlocksReplaced s old new .tight) (OneOff (Differ more)) (termParts items)
      (termParts items')
  | _, _, .content h =>
      .behind (inlinesHtml_blind _) fun _ => (settingHtml_alters he h).before (termParts_blind _)
        fun _ _ _ hdiffer => .tail (.head (hdiffer.between _ _))
  | _, _, .term h => (inlinesHtml_alters h).inert fun _ =>
      (tightHtml_blind _).bind fun _ => (termParts_blind _).map
  | .mk _ _ :: _, _, .tail h =>
      .behind (inlinesHtml_blind _) fun _ => .behind (tightHtml_blind _) fun _ =>
        (termParts_alters he h).map fun _ _ hoff => .tail (.tail hoff)

theorem cellsHtml_alters (he : Exchange s old new more) : ∀ {cells cells' : List TableCell},
    CellsReplaced s old new cells cells' →
    Alters (BlocksReplaced s old new .tight) (Differ more) (cellsHtml cells) (cellsHtml cells')
  | _, _, .head h => (settingHtml_alters he h).before (cellsHtml_blind _)
      fun _ _ _ hdiffer => (hdiffer.between _ _).append_right _
  | .mk _ _ _ _ :: _, _, .tail h => .behind (tightHtml_blind _) fun _ =>
      (cellsHtml_alters he h).map fun _ _ hdiffer => hdiffer.append_left _

theorem rowParts_alters (he : Exchange s old new more) : ∀ {rows rows' : List (List TableCell)},
    RowsReplaced s old new rows rows' →
    Alters (BlocksReplaced s old new .tight) (OneOff (Differ more)) (rowParts rows) (rowParts rows')
  | _, _, .head h => (cellsHtml_alters he h).before (rowParts_blind _)
      fun _ _ _ hdiffer => .head (hdiffer.between _ _)
  | _, _, .tail h => .behind (cellsHtml_blind _) fun _ =>
      (rowParts_alters he h).map fun _ _ hoff => .tail hoff

end

/-! ### Notes -/

theorem Differ.noteItem {s t : String} (h : Differ more s t) (n : Nat) :
    Differ more (Html.noteItem n s) (Html.noteItem n t) :=
  ((h.between _ _).append_right _).append_right _

/-- A turn takes one note off what is to come. -/
theorem queuedNotes_behind {w w' : Writer} {i : Nat} {content : List Block}
    {rest : List (List Block)} {body : String} (hnext : w.notes.drop i = content :: rest)
    (hbody : tightHtml content w = .ok (body, w')) :
    queuedNotes (content :: rest) = queuedNotes (w'.notes.drop (i + 1)) + 1 := by
  obtain ⟨extra, hextra, hsize, -⟩ := tightHtml_refers content hbody
  rw [hextra, drop_of_turn hnext, queuedNotes_append, hsize, queuedNotes]
  omega

/-- The notes to come, one of which is altered. -/
theorem noteParts_alters (he : Exchange s old new more) {turns i : Nat} {w v w' : Writer}
    {items : List String}
    (hqueue : OneOff (BlocksReplaced s old new .tight) (w.notes.drop i) (v.notes.drop i))
    (hlevel : Level w v) (hturns : queuedNotes (w.notes.drop i) ≤ turns)
    (h : noteParts turns i w = .ok (items, w')) :
    ∃ items' v', noteParts turns i v = .ok (items', v') ∧ OneOff (Differ more) items items' := by
  induction turns generalizing i w v items with
  | zero =>
      -- there is a note to come, and so a turn
      cases hnext : w.notes.drop i with
      | nil =>
          rw [hnext] at hqueue
          cases hqueue
      | cons content rest =>
          rw [hnext, queuedNotes] at hturns
          omega
  | succ turns ih =>
      generalize hnext : w.notes.drop i = left at hqueue hturns
      generalize hnext' : v.notes.drop i = left' at hqueue
      cases hqueue with
      | @head content content' rest hcontent =>
          obtain ⟨body, w₁, after, hbody, hafter, rfl⟩ := (noteParts_turn_iff hnext).mp h
          obtain ⟨body', extra, extra', hnotes, hor, hrun⟩ :=
            settingHtml_alters he hcontent hbody
          have hlevel' := hlevel.append hnotes (Alters.length_eq hor)
          rcases hor with ⟨hdiffer, rfl⟩ | ⟨rfl, hoff⟩
          · -- it is the note itself that is another one, and all behind it is the same
            have hqueue : (v.notes ++ extra').drop (i + 1) = w₁.notes.drop (i + 1) := by
              rw [hnotes, drop_of_turn hnext, drop_of_turn hnext']
            obtain ⟨v', hafter'⟩ := noteParts_blind hqueue hlevel' hafter
            exact ⟨_, v', (noteParts_turn_iff hnext').mpr
              ⟨body', _, after, hrun v hlevel, hafter', rfl⟩, .head (hdiffer.noteItem (i + 1))⟩
          · -- it is a note inside this one, which is queued now
            have hqueue : OneOff (BlocksReplaced s old new .tight) (w₁.notes.drop (i + 1))
                ((v.notes ++ extra').drop (i + 1)) := by
              rw [hnotes, drop_of_turn hnext, drop_of_turn hnext']
              exact hoff.append_left rest
            have hleft := queuedNotes_behind hnext hbody
            obtain ⟨after', v', hafter', hitems⟩ := ih hqueue hlevel' (by omega) hafter
            exact ⟨_, v', (noteParts_turn_iff hnext').mpr
              ⟨body', _, after', hrun v hlevel, hafter', rfl⟩, .tail hitems⟩
      | @tail content rest rest' hrest =>
          obtain ⟨body, w₁, after, hbody, hafter, rfl⟩ := (noteParts_turn_iff hnext).mp h
          obtain ⟨extra, hnotes, hrun⟩ := tightHtml_blind content hbody
          have hqueue : OneOff (BlocksReplaced s old new .tight) (w₁.notes.drop (i + 1))
              ((v.notes ++ extra).drop (i + 1)) := by
            rw [hnotes, drop_of_turn hnext, drop_of_turn hnext']
            exact hrest.append_right extra
          have hleft := queuedNotes_behind hnext hbody
          obtain ⟨after', v', hafter', hitems⟩ :=
            ih hqueue (hlevel.append hnotes rfl) (by omega) hafter
          exact ⟨_, v', (noteParts_turn_iff hnext').mpr
            ⟨body, _, after', hrun v hlevel, hafter', rfl⟩, .tail hitems⟩

theorem notesHtml_of_ne_nil {w : Writer} (h : w.notes ≠ []) (turns : Nat) :
    notesHtml turns w = (noteParts turns 0 >>= fun items =>
      Pure.pure (joinLines (["<ol class=\"footnotes\">"] ++ items ++ ["</ol>"]))) w := by
  have hsome : w.notes.isEmpty = false := by
    rw [Bool.eq_false_iff, ne_eq, List.isEmpty_iff]
    exact h
  rw [notesHtml, get_bind, hsome]
  rfl

/-- The list of notes, one of which is altered. -/
theorem notesHtml_alters (he : Exchange s old new more) {turns : Nat} {w v w' : Writer}
    {html : String} (hqueue : OneOff (BlocksReplaced s old new .tight) w.notes v.notes)
    (hlevel : Level w v) (hturns : queuedNotes w.notes ≤ turns)
    (h : notesHtml turns w = .ok (html, w')) :
    ∃ html' v', notesHtml turns v = .ok (html', v') ∧ Differ more html html' := by
  rw [notesHtml_of_ne_nil hqueue.ne_nil.1] at h
  rw [notesHtml_of_ne_nil hqueue.ne_nil.2]
  obtain ⟨items, w₁, hitems, hlist⟩ := exists_of_bind h
  cases hlist
  obtain ⟨items', v', hrun, hoff⟩ := noteParts_alters he (i := 0) hqueue hlevel hturns hitems
  have hlast : "</ol>".isEmpty = false := by decide
  refine ⟨_, v', ?_, (hoff.kept "<ol class=\"footnotes\">" hlast).differ⟩
  change (noteParts turns 0 v >>= fun r => Except.ok (_, r.2)) = _
  rw [hrun]
  rfl

/-! ### Documents -/

/-- A document is written where its blocks are, and then its notes. -/
theorem render_ok_iff {o : Options} {d : Document} {html : String} :
    render o d = .ok html ↔ ∃ body w notes w', settingHtml .lines d.content {} = .ok (body, w) ∧
      notesHtml (blocksNotes d.content) w = .ok (notes, w') ∧
      html = pageHtml o d.metadata body notes := by
  rw [render_eq, settingHtml]
  change _ ↔ ∃ body w notes w', (blockParts d.content {} >>= fun r =>
    Except.ok (joinLines r.1, r.2)) = .ok (body, w) ∧ _
  cases blockParts d.content {} with
  | error e =>
      refine iff_of_false (fun h => by cases h) ?_
      rintro ⟨_, _, _, _, h, -⟩
      cases h
  | ok r =>
      obtain ⟨parts, w⟩ := r
      change (notesHtml (blocksNotes d.content) w >>= fun q => _) = _ ↔ _
      constructor
      · intro h
        cases hnotes : notesHtml (blocksNotes d.content) w with
        | error e =>
            rw [hnotes] at h
            cases h
        | ok q =>
            rw [hnotes] at h
            cases h
            exact ⟨_, w, q.1, q.2, rfl, hnotes, rfl⟩
      · rintro ⟨_, _, notes, w', ⟨⟩, hnotes, rfl⟩
        rw [hnotes]
        rfl

/-- All notes of a document are in the queue when its blocks are written, or inside one that is. -/
theorem queuedNotes_settingHtml {bs : List Block} {html : String} {queue : List (List Block)}
    {slugs : List String} (h : settingHtml .lines bs {} = .ok (html, ⟨queue, slugs⟩)) :
    queuedNotes queue = blocksNotes bs := by
  obtain ⟨parts, w, hparts, hpure⟩ := exists_of_bind h
  cases hpure
  obtain ⟨new, hqueue, hsize, -⟩ := blockParts_refers bs hparts
  obtain rfl : queue = new := hqueue
  exact hsize

theorem endLine_injective : Function.Injective endLine := by
  intro s t h
  unfold endLine at h
  split at h
  · next hs =>
    split at h
    · next ht => rw [String.isEmpty_iff.mp hs, String.isEmpty_iff.mp ht]
    · exact absurd (String.append_eq_empty_iff.mp h.symm).2 (by decide)
  · split at h
    · exact absurd (String.append_eq_empty_iff.mp h).2 (by decide)
    · simpa using h

theorem Differ.pageHtml {body body' notes notes' : String}
    (h : Differ more (endLine body ++ endLine notes) (endLine body' ++ endLine notes'))
    (o : Options) (m : Metadata) :
    Differ more (Html.pageHtml o m body notes) (Html.pageHtml o m body' notes') := by
  unfold Html.pageHtml
  dsimp only
  split
  · exact h.between _ _
  · exact h

/-- **The rest of a document makes no difference**: if of two lists of blocks each can be written
where the other one can, to the same text or always to another one, this is so of two documents that
have the one in the place of the other. -/
theorem Exchange.render (he : Exchange s old new more) {o : Options} {d d' : Document}
    {html : String} (h : d.Replaced s old new d') (hrender : Html.render o d = .ok html) :
    ∃ html', Html.render o d' = .ok html' ∧ Differ more html html' := by
  obtain ⟨hmetadata, hblocks⟩ := h
  obtain ⟨body, ⟨queue, slugs⟩, notes, w', hbody, hnotes, rfl⟩ := render_ok_iff.mp hrender
  obtain ⟨body', new, new', hqueue, hor, hrun⟩ := settingHtml_alters he hblocks hbody
  obtain rfl : queue = new := hqueue
  have hbody' : settingHtml .lines d'.content {} = .ok (body', ⟨new', slugs⟩) :=
    hrun {} ⟨rfl, rfl⟩
  have hturns := hblocks.blocksNotes_eq he.notes
  rw [← hmetadata]
  rcases hor with ⟨hdiffer, rfl⟩ | ⟨rfl, hoff⟩
  · -- the place is in the body, and the notes are the same
    refine ⟨_, render_ok_iff.mpr ⟨body', _, notes, w', hbody', ?_, rfl⟩, ?_⟩
    · rw [hturns]
      exact hnotes
    · exact ((hdiffer.map endLine_injective).append_right _).pageHtml o d'.metadata
  · -- the place is in a note
    have hlevel : Level ⟨queue, slugs⟩ ⟨new', slugs⟩ := ⟨rfl, hoff.length_eq⟩
    have hsize := Nat.le_of_eq (queuedNotes_settingHtml hbody)
    obtain ⟨notes', v', hnotes', hdiffer⟩ := notesHtml_alters he hoff hlevel hsize hnotes
    refine ⟨_, render_ok_iff.mpr ⟨body', _, notes', v', hbody', ?_, rfl⟩, ?_⟩
    · rw [hturns]
      exact hnotes'
    · exact ((hdiffer.map endLine_injective).append_left _).pageHtml o d'.metadata

end tree

end Markup.Html
