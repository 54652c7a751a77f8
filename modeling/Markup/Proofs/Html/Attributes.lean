import Markup.Proofs.Doc.Within
import Markup.Proofs.Html.Notes
import Markup.Proofs.Html.TagWalk

/-! # Attributes that are read as they are meant

Whatever the strings of a document are, the start tags of what is written have the names that are
meant, and their attributes are the ones that are meant, with the very values, just if the names of
the attributes are plain.  All names of attributes are fixed and plain but for one kind: a tagged
block has one attribute for each entry of its metadata, whose key is part of the name.  A key with a
space or an equals sign in it adds attributes, and one that has to be escaped is read under another
name.

Which tags of a document are plain is told by the keys in it alone (`documentTags_plain_iff`): by
one induction on the tree for blocks outside notes, and by the loop over the queue for those inside.
`startTags_meant_iff` puts this together with the reading of the page. -/

namespace Markup

/-- The keys of a tagged block; other blocks have none. -/
def Block.keys : Block → List String
  | .tagged _ metadata => metadata.map Prod.fst
  | _ => []

/-- Blocks all of whose keys are plain. -/
def PlainKeys (bs : List Block) : Prop := ∀ b ∈ bs, ∀ k ∈ b.keys, Html.StartTag.PlainName k

instance : DecidablePred PlainKeys := fun bs => inferInstanceAs (Decidable (∀ b ∈ bs, _))

theorem plainKeys_nil : PlainKeys [] := List.forall_mem_nil _

theorem plainKeys_append {bs cs : List Block} :
    PlainKeys (bs ++ cs) ↔ PlainKeys bs ∧ PlainKeys cs := List.forall_mem_append

theorem plainKeys_cons {b : Block} {bs : List Block} :
    PlainKeys (b :: bs) ↔ (∀ k ∈ b.keys, Html.StartTag.PlainName k) ∧ PlainKeys bs :=
  List.forall_mem_cons

namespace Html

/-- Tags all of whose attributes have plain names. -/
def PlainTags (tags : List StartTag) : Prop := ∀ t ∈ tags, t.Plain

instance : DecidablePred PlainTags := fun tags => inferInstanceAs (Decidable (∀ t ∈ tags, _))

theorem plainTags_nil : PlainTags [] := List.forall_mem_nil _

theorem plainTags_append {tags tags' : List StartTag} :
    PlainTags (tags ++ tags') ↔ PlainTags tags ∧ PlainTags tags' := List.forall_mem_append

theorem plainTags_cons {t : StartTag} {tags : List StartTag} :
    PlainTags (t :: tags) ↔ t.Plain ∧ PlainTags tags := List.forall_mem_cons

/-! ### Fixed names -/

/-- A tag is plain by the names of its attributes, whatever the values are. -/
theorem StartTag.Plain.of_keys {t : StartTag} (keys : List String)
    (h : t.attributes.map Prod.fst = keys) (hplain : ∀ k ∈ keys, PlainName k) : t.Plain :=
  fun _ hp => hplain _ (h ▸ List.mem_map_of_mem hp)

theorem plain_code (language : Option String) :
    StartTag.Plain ⟨"code", languagePairs language⟩ := by
  cases language with
  | none => exact List.forall_mem_nil _
  | some language =>
      rw [languagePairs]
      split
      · exact List.forall_mem_nil _
      · exact .of_keys ["class"] rfl (by decide)

theorem plain_page (lang : Option String) : StartTag.Plain ⟨"html", pagePairs lang⟩ := by
  cases lang with
  | none => exact List.forall_mem_nil _
  | some lang =>
      rw [pagePairs]
      split
      · exact List.forall_mem_nil _
      · exact .of_keys ["lang"] rfl (by decide)

theorem plainTags_reference (n : Nat) : PlainTags (referenceTags n) := by
  refine plainTags_cons.mpr ⟨by decide, plainTags_cons.mpr ⟨?_, plainTags_nil⟩⟩
  exact .of_keys ["href", "id"] rfl (by decide)

/-! ### Steps that list tags -/

/-- A step that lists the tags of a part: they are plain, and so are the keys in the notes that it
queues, exactly if all keys `within` the part are. -/
def TellsKeys (step : Render (List StartTag)) (within : List Block) : Prop :=
  ∀ ⦃w : Writer⦄ ⦃tags : List StartTag⦄ ⦃w' : Writer⦄, step w = .ok (tags, w') →
    ∃ new, w'.notes = w.notes ++ new ∧
      (PlainTags tags ∧ PlainKeys (new.flatMap blocksWithin) ↔ PlainKeys within)

namespace TellsKeys

variable {step next : Render (List StartTag)} {tags : List StartTag} {t : StartTag} {b : Block}
  {within within' : List Block}

theorem pure (h : PlainTags tags) : TellsKeys (Pure.pure tags) [] := by
  rintro w _ _ ⟨⟩
  refine ⟨[], (List.append_nil _).symm, ?_⟩
  exact iff_of_true ⟨h, plainKeys_nil⟩ plainKeys_nil

theorem throw (e : RenderError) : TellsKeys (MonadExcept.throw e) within := by
  intro w tags w' h
  cases h

theorem inTurn (h : TellsKeys step within) (h' : TellsKeys next within') :
    TellsKeys (inTurn step next) (within ++ within') := by
  intro w tags w' hrun
  obtain ⟨here, w₁, hhere, hrun⟩ := exists_of_bind hrun
  obtain ⟨after, w₂, hafter, hrun⟩ := exists_of_bind hrun
  cases hrun
  obtain ⟨new, hnew, hplain⟩ := h hhere
  obtain ⟨new', hnew', hplain'⟩ := h' hafter
  refine ⟨new ++ new', by rw [hnew', hnew, List.append_assoc], ?_⟩
  rw [plainTags_append, List.flatMap_append, plainKeys_append, plainKeys_append, ← hplain,
    ← hplain']
  exact and_and_and_comm

/-- A tag in front that is plain changes nothing. -/
theorem around (h : TellsKeys step within) (ht : t.Plain) :
    TellsKeys (t.around step) within := by
  intro w tags w' hrun
  obtain ⟨tags, w₁, htags, hrun⟩ := exists_of_bind hrun
  cases hrun
  obtain ⟨new, hnew, hplain⟩ := h htags
  refine ⟨new, hnew, ?_⟩
  rw [plainTags_cons, and_iff_right ht]
  exact hplain

/-- A block without keys around what is within changes nothing. -/
theorem meet (hb : b.keys = []) (h : TellsKeys step within) : TellsKeys step (b :: within) := by
  intro w tags w' hrun
  obtain ⟨new, hnew, hplain⟩ := h hrun
  have hnone : ∀ k ∈ b.keys, StartTag.PlainName k := by
    rw [hb]
    exact List.forall_mem_nil _
  exact ⟨new, hnew, hplain.trans (plainKeys_cons.trans (and_iff_right hnone)).symm⟩

/-- The tag of a tagged block is plain just if the keys of the block are. -/
theorem tagged (h : TellsKeys step within) (content : List Block) (m : Metadata) :
    TellsKeys ((StartTag.tagged m).around step) (.tagged content m :: within) := by
  intro w tags w' hrun
  obtain ⟨tags, w₁, htags, hrun⟩ := exists_of_bind hrun
  cases hrun
  obtain ⟨new, hnew, hplain⟩ := h htags
  refine ⟨new, hnew, ?_⟩
  rw [plainTags_cons, StartTag.plain_tagged_iff, plainKeys_cons, Block.keys, List.forall_mem_map,
    and_assoc, hplain]

end TellsKeys

/-- A note is queued, and its reference has plain tags. -/
theorem addNote_tells (content : List Block) :
    TellsKeys (addNote content >>= fun n => Pure.pure (referenceTags n))
      (blocksWithin content) := by
  rintro w _ _ ⟨⟩
  refine ⟨[content], rfl, ?_⟩
  rw [and_iff_right (plainTags_reference _), List.flatMap_singleton]

/-- Taking a slug queues nothing. -/
theorem TellsKeys.takeSlug {next : String → Render (List StartTag)} {within : List Block}
    (h : ∀ slug, TellsKeys (next slug) within) (text : String) :
    TellsKeys (takeSlug text >>= next) within := by
  intro w tags w' hrun
  obtain ⟨_, _, ⟨⟩, hrun⟩ := exists_of_bind hrun
  obtain ⟨new, hnew, hplain⟩ := h _ hrun
  exact ⟨new, hnew, hplain⟩

/-! ### The tree -/

theorem inlinesTags_of_vanishes : ∀ {run : List Inline}, run.all Inline.vanishes = true →
    inlinesTags run = Pure.pure []
  | [], _ => by rw [inlinesTags]
  | i :: rest, h => by
      obtain ⟨hi, hrest⟩ := Bool.and_eq_true_iff.mp h
      have hhere : inlineTags i = Pure.pure [] := by
        cases i with
        | text | space => rw [inlineTags]
        | _ => cases hi
      rw [inlinesTags, hhere, inlinesTags_of_vanishes hrest]
      rfl

mutual

theorem inlineTags_tells : ∀ i : Inline, TellsKeys (inlineTags i) i.within
  | .text _ | .space => .pure plainTags_nil
  | .styled style content => by
      refine (inlinesTags_tells content).around ?_
      cases style <;> decide
  | .quote _ content => inlinesTags_tells content
  | .code _ language => .pure (plainTags_cons.mpr ⟨plain_code language, plainTags_nil⟩)
  | .link target content _ _ =>
      (linkTags_tells content).around (.of_keys ["href"] rfl (by decide))
  | .footnote content => addNote_tells content
  | .math _ => .pure (by decide)
  | .foreign _ => .throw _

theorem inlinesTags_tells : ∀ run : List Inline, TellsKeys (inlinesTags run) (inlinesWithin run)
  | [] => .pure plainTags_nil
  | i :: rest => (inlineTags_tells i).inTurn (inlinesTags_tells rest)

theorem linkTags_tells : ∀ content : Option (List Inline),
    TellsKeys (linkTags content) (optionWithin content)
  | some content => inlinesTags_tells content
  | none => .pure plainTags_nil

end

/-- The label of an item meets no block. -/
theorem labelTags_tells (label : Option (List Inline)) :
    TellsKeys (labelTags label) (optionWithin label) := by
  cases label with
  | none => exact .pure plainTags_nil
  | some label => exact (inlinesTags_tells label).around (by decide)

/-- A caption that vanishes has no tags, so that none is left out with it. -/
theorem figure_tells {content : List Block} {caption : List Inline}
    (hcontent : TellsKeys (blocksTags content) (blocksWithin content)) :
    TellsKeys (blockTags (.figure content caption))
      (blocksWithin content ++ inlinesWithin caption) := by
  intro w tags w' hrun
  rw [blockTags] at hrun
  obtain ⟨under, w₁, hunder, hrun⟩ := exists_of_bind hrun
  obtain ⟨inner, w₂, hinner, hrun⟩ := exists_of_bind hrun
  cases hrun
  obtain ⟨new, hnew, hplain⟩ := inlinesTags_tells caption hunder
  obtain ⟨new', hnew', hplain'⟩ := hcontent hinner
  have hcaption : PlainTags (if caption.all Inline.vanishes then []
      else ⟨"figcaption", []⟩ :: under) ↔ PlainTags under := by
    split
    · next hvanishes =>
      rw [inlinesTags_of_vanishes hvanishes] at hunder
      cases hunder
      rfl
    · exact plainTags_cons.trans (and_iff_right (by decide))
  have hfigure : StartTag.Plain ⟨"figure", []⟩ := by decide
  refine ⟨new ++ new', by rw [hnew', hnew, List.append_assoc], ?_⟩
  rw [plainTags_cons, and_iff_right hfigure, plainTags_append, hcaption, List.flatMap_append,
    plainKeys_append, plainKeys_append, ← hplain, ← hplain',
    and_comm (a := PlainKeys (new.flatMap blocksWithin))]
  exact and_and_and_comm

mutual

theorem blockTags_tells : ∀ b : Block, TellsKeys (blockTags b) (b :: b.inside)
  | .plain content => .meet rfl (inlinesTags_tells content)
  | .par content => by
      refine .meet rfl ?_
      rw [blockTags]
      split
      · next hblank =>
        rw [Block.inside, inlinesWithin_of_isBlankRun hblank]
        exact .pure plainTags_nil
      · exact (inlinesTags_tells content).around (by decide)
  | .codeBlock language content =>
      .meet rfl (((inlinesTags_tells content).around (plain_code language)).around (by decide))
  | .blockQuote content => .meet rfl ((blocksTags_tells content).around (by decide))
  | .tagged content metadata => (blocksTags_tells content).tagged content metadata
  | .list kind items => by
      refine .meet rfl ((itemsTags_tells items).around ?_)
      cases kind <;> decide
  | .termList items => .meet rfl ((termsTags_tells items).around (by decide))
  | .heading level text => by
      refine .meet rfl ?_
      rw [blockTags]
      split
      · refine .takeSlug (fun slug => ?_) _
        exact ((inlinesTags_tells text).around (.of_keys ["href"] rfl (by decide))).around
          (.of_keys ["id"] rfl (by decide))
      · exact .throw _
  | .rule => .meet rfl (.pure (by decide))
  | .table _ rows => .meet rfl ((rowsTags_tells rows).around (by decide))
  | .figure content _ => .meet rfl (figure_tells (blocksTags_tells content))
  | .defn kind content =>
      .meet rfl ((blocksTags_tells content).around (.of_keys ["class"] rfl (by decide)))
  | .mathBlock _ => .meet rfl (.pure (by decide))
  | .foreign _ => .throw _

theorem blocksTags_tells : ∀ bs : List Block, TellsKeys (blocksTags bs) (blocksWithin bs)
  | [] => .pure plainTags_nil
  | b :: rest => (blockTags_tells b).inTurn (blocksTags_tells rest)

theorem tightTags_tells (bs : List Block) : TellsKeys (tightTags bs) (blocksWithin bs) := by
  cases bs with
  | nil => exact .pure plainTags_nil
  | cons b rest =>
      rw [blocksWithin]
      unfold tightTags
      split
      · next content =>
        rw [blocksWithin, List.append_nil]
        exact .meet rfl (inlinesTags_tells content)
      · next content =>
        rw [blocksWithin, List.append_nil]
        exact .meet rfl (inlinesTags_tells content)
      · exact (blockTags_tells b).inTurn (blocksTags_tells rest)

theorem itemsTags_tells : ∀ items : List ListItem,
    TellsKeys (itemsTags items) (itemsWithin items)
  | [] => .pure plainTags_nil
  | .mk content label :: rest => by
      rw [itemsTags, itemsWithin, ← List.append_assoc]
      exact (((labelTags_tells label).inTurn (tightTags_tells content)).around (by decide)).inTurn
        (itemsTags_tells rest)

theorem termsTags_tells : ∀ items : List TermItem,
    TellsKeys (termsTags items) (termsWithin items)
  | [] => .pure plainTags_nil
  | .mk term content :: rest =>
      ((inlinesTags_tells term).around (by decide)).inTurn
        (((tightTags_tells content).around (by decide)).inTurn (termsTags_tells rest))

theorem cellsTags_tells : ∀ cells : List TableCell,
    TellsKeys (cellsTags cells) (cellsWithin cells)
  | [] => .pure plainTags_nil
  | .mk content alignment rowSpan colSpan :: rest =>
      ((tightTags_tells content).around (plain_cell alignment rowSpan colSpan)).inTurn
        (cellsTags_tells rest)

theorem rowsTags_tells : ∀ rows : List (List TableCell),
    TellsKeys (rowsTags rows) (rowsWithin rows)
  | [] => .pure plainTags_nil
  | row :: rest => ((cellsTags_tells row).around (by decide)).inTurn (rowsTags_tells rest)

end

/-! ### Notes -/

theorem noteTags_tells (n : Nat) (content : List Block) :
    TellsKeys (noteTags n content) (blocksWithin content) := by
  have hback : TellsKeys (Pure.pure [⟨"a", [("href", "#fn-link-" ++ toString n)]⟩]) [] :=
    .pure (plainTags_cons.mpr ⟨.of_keys ["href"] rfl (by decide), plainTags_nil⟩)
  have h := ((tightTags_tells content).inTurn hback).around
    (t := ⟨"li", [("id", "fn-" ++ toString n)]⟩) (.of_keys ["id"] rfl (by decide))
  rwa [List.append_nil] at h

/-- The notes that a note queues are all notes inside it. -/
theorem noteTags_queues {n : Nat} {content : List Block} {w w' : Writer} {tags : List StartTag}
    (h : noteTags n content w = .ok (tags, w')) :
    ∃ new, w'.notes = w.notes ++ new ∧ queuedNotes new = blocksNotes content ∧
      (PlainTags tags ∧ PlainKeys (new.flatMap blocksWithin) ↔
        PlainKeys (blocksWithin content)) := by
  obtain ⟨new, hnew, hplain⟩ := noteTags_tells n content h
  refine ⟨new, hnew, ?_, hplain⟩
  obtain ⟨_, _, hinner, ⟨⟩⟩ := exists_of_bind h
  obtain ⟨_, _, htight, hback⟩ := exists_of_bind hinner
  obtain ⟨_, _, ⟨⟩, ⟨⟩⟩ := exists_of_bind hback
  obtain ⟨body, hbody, -⟩ := (tightHtml_holds content).exists_left htight
  obtain ⟨new', hnew', hsize, -⟩ := tightHtml_refers content hbody
  rwa [List.append_cancel_left (hnew.symm.trans hnew')]

/-- With as many turns as there are notes left, the tags tell of all keys in the notes left. -/
theorem queueTags_plain_iff {turns i : Nat} {w w' : Writer} {tags : List StartTag}
    (hturns : queuedNotes (w.notes.drop i) ≤ turns) (h : queueTags turns i w = .ok (tags, w')) :
    PlainTags tags ↔ PlainKeys ((w.notes.drop i).flatMap blocksWithin) := by
  induction turns generalizing i w tags with
  | zero =>
      have hnone : w.notes.drop i = [] := by
        cases hleft : w.notes.drop i with
        | nil => rfl
        | cons note rest =>
            rw [hleft, queuedNotes] at hturns
            omega
      cases h
      rw [hnone]
      exact iff_of_true plainTags_nil plainKeys_nil
  | succ turns ih =>
      rw [queueTags] at h
      obtain ⟨_, _, ⟨⟩, h⟩ := exists_of_bind h
      cases hnote : w.notes[i]? with
      | none =>
          rw [hnote] at h
          cases h
          rw [List.drop_eq_nil_of_le (List.getElem?_eq_none_iff.mp hnote)]
          exact iff_of_true plainTags_nil plainKeys_nil
      | some content =>
          rw [hnote] at h
          obtain ⟨here, w₁, hhere, h⟩ := exists_of_bind h
          obtain ⟨after, w₂, hafter, h⟩ := exists_of_bind h
          cases h
          obtain ⟨new, hnew, hsize, hplain⟩ := noteTags_queues hhere
          obtain ⟨hlt, hget⟩ := List.getElem?_eq_some_iff.mp hnote
          have hnext : i + 1 ≤ w.notes.length := hlt
          have hleft := queuedNotes_turn hnote hsize
          rw [← hnew] at hleft
          have hrest := ih (by omega) hafter
          -- what this note queues is behind what was left
          rw [hnew, List.drop_append_of_le_length hnext, List.flatMap_append, plainKeys_append]
            at hrest
          rw [plainTags_append, hrest, List.drop_eq_getElem_cons hlt, hget, List.flatMap_cons,
            plainKeys_append, ← hplain, and_assoc]
          exact and_congr_right fun _ => and_comm

theorem notesTags_plain_iff {turns : Nat} {w w' : Writer} {tags : List StartTag}
    (hturns : queuedNotes w.notes ≤ turns) (h : notesTags turns w = .ok (tags, w')) :
    PlainTags tags ↔ PlainKeys (w.notes.flatMap blocksWithin) := by
  rw [notesTags] at h
  obtain ⟨_, _, ⟨⟩, h⟩ := exists_of_bind h
  split at h
  · next hempty =>
    cases h
    rw [List.isEmpty_iff.mp hempty]
    exact iff_of_true plainTags_nil plainKeys_nil
  · obtain ⟨tags, _, htags, ⟨⟩⟩ := exists_of_bind h
    have hlist : StartTag.Plain ⟨"ol", [("class", "footnotes")]⟩ := by decide
    exact plainTags_cons.trans ((and_iff_right hlist).trans (queueTags_plain_iff hturns htags))

/-! ### Documents -/

theorem plainTags_head (o : Options) (m : Metadata) : PlainTags (headTags o m) := by
  refine plainTags_append.mpr ⟨plainTags_append.mpr ⟨plainTags_cons.mpr ⟨by decide, ?_⟩, ?_⟩, ?_⟩
  · cases m.get? "title" with
    | none => exact plainTags_nil
    | some _ => exact plainTags_cons.mpr ⟨List.forall_mem_nil _, plainTags_nil⟩
  · exact List.forall_mem_map.mpr fun _ _ => .of_keys ["name", "content"] rfl (by decide)
  · exact List.forall_mem_map.mpr fun _ _ => .of_keys ["rel", "href"] rfl (by decide)

theorem plainTags_page (o : Options) (m : Metadata) {tags : List StartTag} :
    PlainTags (pageTags o m tags) ↔ PlainTags tags := by
  unfold pageTags
  split
  · have hfront : PlainTags (⟨"html", pagePairs o.lang⟩ :: ⟨"head", []⟩ :: headTags o m) :=
      plainTags_cons.mpr ⟨plain_page o.lang, plainTags_cons.mpr ⟨by decide, plainTags_head o m⟩⟩
    have hbody : StartTag.Plain ⟨"body", []⟩ := by decide
    rw [plainTags_append, and_iff_right hfront, plainTags_cons, and_iff_right hbody]
  · rfl

/-- The tags of a document are plain exactly if all keys in it are, in notes too. -/
theorem documentTags_plain_iff {o : Options} {d : Document} {tags : List StartTag}
    (h : documentTags o d = .ok tags) : PlainTags tags ↔ PlainKeys d.blocks := by
  unfold documentTags at h
  cases hrun : bodyTags d.content {} with
  | error e =>
      rw [StateT.run, hrun] at h
      cases h
  | ok r =>
      obtain ⟨listed, w'⟩ := r
      rw [StateT.run, hrun] at h
      cases h
      obtain ⟨body, w, hbody, hrun⟩ := exists_of_bind hrun
      obtain ⟨notes, _, hnotes, ⟨⟩⟩ := exists_of_bind hrun
      obtain ⟨new, hnew, hplain⟩ := blocksTags_tells d.content hbody
      obtain ⟨parts, hparts, -⟩ := (blockParts_holds d.content).exists_left hbody
      obtain ⟨new', hnew', hsize, -⟩ := blockParts_refers d.content hparts
      have hqueue : w.notes = new := hnew
      have hqueue' : w.notes = new' := hnew'
      have htold := notesTags_plain_iff (by rw [hqueue', hsize]) hnotes
      rw [hqueue] at htold
      rw [plainTags_page, plainTags_append, htold, hplain]
      rfl

/-- **Attributes are read as they are meant, but for the keys of tagged blocks.**  In a document
that is written, reading the start tags of the page finds the tags that the document means, one for
one and with these names.  A tag is found with exactly the attributes that are meant, their values
the very strings of the document, just if all names of its attributes are plain; and so they are
unless it is the tag of a tagged block with a key that is not.  So all tags are found as they are
meant exactly if all keys of tagged blocks are plain, wherever in the document they stand. -/
theorem startTags_meant_iff (o : Options) {d : Document} {html : String}
    (h : render o d = .ok html) :
    ∃ insides tags, cut html = some insides ∧ documentTags o d = .ok tags ∧
      List.Forall₂ (fun found meant => found.name = meant.name ∧ (found = meant ↔ meant.Plain))
        (insides.filterMap StartTag.read?) tags ∧
      (∀ t ∈ tags, t.Plain ∨ ∃ m, t = .tagged m) ∧
      (insides.filterMap StartTag.read? = tags ↔ PlainKeys d.blocks) := by
  rcases render_holds o d with ⟨e, herror, -⟩ | ⟨html', tags, hhtml, htags, hholds⟩
  · rw [h] at herror
    cases herror
  · obtain rfl : html = html' := Except.ok.inj (h.symm.trans hhtml)
    obtain ⟨-, htemplate, insides, hreads, hread⟩ := hholds
    have hself : ∀ t ∈ tags, (t.reread = t ↔ t.Plain) := fun t ht =>
      (htemplate t ht).reread_eq_self_iff
    refine ⟨insides, tags, hreads.cut_eq, htags, ?_,
      fun t ht => (htemplate t ht).plain_or_tagged, ?_⟩
    · rw [hread, List.forall₂_map_left_iff, List.forall₂_same]
      exact fun t ht => ⟨rfl, hself t ht⟩
    · rw [hread]
      have hmap : tags.map StartTag.reread = tags ↔ ∀ t ∈ tags, t.reread = t := by
        have hid := List.map_inj_left (l := tags) (f := StartTag.reread) (g := id)
        rwa [List.map_id] at hid
      exact (hmap.trans (forall₂_congr hself)).trans (documentTags_plain_iff htags)

/-- Strings that try to end a value and to add attributes: in a link, a language, the metadata, and
the value of a key, in a note too. -/
def hostileStrings : Document where
  metadata := [("a\" b=\"", "'>")]
  content := [
    .tagged [.plain [.link "\" onclick=\"f()" none none .url]] [("key", "v\" w=\"1")],
    .codeBlock (some "x y=z") [.footnote [.tagged [] [("k", "&quot; x=")]]]]

theorem startTags_meant_iff_hostile :
    ∃ html insides, render ⟨true, some "en\" x=", ["a b.css"]⟩ hostileStrings = .ok html ∧
      cut html = some insides ∧
      insides.filterMap StartTag.read? = [
        ⟨"html", [("lang", "en\" x=")]⟩, ⟨"head", []⟩, ⟨"meta", [("charset", "utf-8")]⟩,
        ⟨"meta", [("name", "a\" b=\""), ("content", "'>")]⟩,
        ⟨"link", [("rel", "stylesheet"), ("href", "a b.css")]⟩, ⟨"body", []⟩,
        ⟨"div", [("data-key", "v\" w=\"1")]⟩, ⟨"a", [("href", "\" onclick=\"f()")]⟩, ⟨"pre", []⟩,
        ⟨"code", [("class", "language-x y=z")]⟩, ⟨"sup", [("class", "footnote-ref")]⟩,
        ⟨"a", [("href", "#fn-1"), ("id", "fn-link-1")]⟩, ⟨"ol", [("class", "footnotes")]⟩,
        ⟨"li", [("id", "fn-1")]⟩, ⟨"div", [("data-k", "&quot; x=")]⟩,
        ⟨"a", [("href", "#fn-link-1")]⟩] := by
  have hformed : hostileStrings.WellFormed := by
    simp [hostileStrings, Document.WellFormed, blocksMadeOf, Block.MadeOf, Inline.MadeOf,
      inlinesMadeOf, optionMadeOf, Writable]
  have hkeys : PlainKeys hostileStrings.blocks := by decide +kernel
  obtain ⟨html, hrender, -⟩ := exists_flow_render ⟨true, some "en\" x=", ["a b.css"]⟩ hformed
  obtain ⟨insides, tags, hcut, htags, -, -, hmeant⟩ := startTags_meant_iff _ hrender
  refine ⟨html, insides, hrender, hcut, ?_⟩
  rw [hmeant.mpr hkeys]
  exact (Except.ok.inj htags).symm

/-- Tagged blocks with a key that has to be escaped, and with one that has a space in it. -/
def oddKeys : Document where
  content := [.tagged [] [("a&b", "1")], .tagged [] [("x onclick", "f()")]]

/-- The first key is read under another name, and the second as two attributes. -/
theorem oddKeys_misread :
    ∃ html insides, render {} oddKeys = .ok html ∧ cut html = some insides ∧
      documentTags {} oddKeys =
        .ok [⟨"div", [("data-a&b", "1")]⟩, ⟨"div", [("data-x onclick", "f()")]⟩] ∧
      insides.filterMap StartTag.read? =
        [⟨"div", [("data-a&amp;b", "1")]⟩, ⟨"div", [("data-x", ""), ("onclick", "f()")]⟩] :=
  ⟨"<div data-a&amp;b=\"1\">\n\n</div>\n<div data-x onclick=\"f()\">\n\n</div>\n",
    ["div data-a&amp;b=\"1\"".toList, "/div".toList, "div data-x onclick=\"f()\"".toList,
      "/div".toList],
    by decide +kernel, by decide +kernel, by decide +kernel, by decide +kernel⟩

end Html

end Markup
