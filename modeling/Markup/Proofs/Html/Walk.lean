import Markup.Proofs.Doc.Within
import Markup.Proofs.Html.FreshSlug
import Markup.Proofs.Html.Landmarks
import Markup.Proofs.Html.Queue

/-! # The way of the writer through a tree

Writing a part of a document meets its blocks one after another, all but those inside notes, which
are queued.  `Walked` is the account of such a way: the slugs that were taken are those of the
headings that were met, in the order in which they were met, and the references have the numbers
that follow those given before.  Numbers are given in the order in which parts are written, and that
is the order in which they are read, but for one thing: the caption of a figure is written before
its content and stands behind it.  So the references are read in the order of their numbers exactly
if no figure that was met has notes both in its caption and in its content (`Numbering`).

`Walks` says of a step that what it writes bears these landmarks, and that the blocks that were met
and those inside the notes that were queued are all blocks of the part.  It is one induction on the
tree (`blockHtml_walks` and its fellows). -/

namespace Markup

/-- A block whose parts are numbered in the order in which they are read.  A figure is one unless
there are notes both in its content and in its caption. -/
def Block.ReadsInOrder : Block → Prop
  | .figure content caption => Html.blocksNotes content = 0 ∨ Html.inlinesNotes caption = 0
  | _ => True

namespace Html

/-! ### Numbers in order -/

/-- The numbers of references as they are read: `count` numbers that follow `first`, and in order
just if all blocks that were met are in order. -/
structure Numbering (first count : Nat) (met : List Block) (refs : List Nat) : Prop where
  complete : refs.Perm (List.range' (first + 1) count)
  ordered : refs = List.range' (first + 1) count ↔ ∀ b ∈ met, b.ReadsInOrder

section numbering

variable {first n n' : Nat} {met met' : List Block} {refs refs' : List Nat}

theorem numbering_nil (first : Nat) : Numbering first 0 [] [] := ⟨.refl _, by simp⟩

theorem Numbering.length_eq (h : Numbering first n met refs) : refs.length = n := by
  simpa using h.complete.length_eq

theorem Numbering.append (h : Numbering first n met refs)
    (h' : Numbering (first + n) n' met' refs') :
    Numbering first (n + n') (met ++ met') (refs ++ refs') := by
  have hrange : List.range' (first + 1) (n + n') =
      List.range' (first + 1) n ++ List.range' (first + n + 1) n' := by
    rw [Nat.add_right_comm, List.range'_append_1]
  refine ⟨?_, ?_⟩
  · rw [hrange]
    exact h.complete.append h'.complete
  · have hlength : refs.length = (List.range' (first + 1) n).length := by
      rw [h.length_eq, List.length_range']
    have hsplit : refs ++ refs' = List.range' (first + 1) n ++ List.range' (first + n + 1) n' ↔
        refs = List.range' (first + 1) n ∧ refs' = List.range' (first + n + 1) n' :=
      ⟨fun heq => List.append_inj heq hlength, fun heq => by rw [heq.1, heq.2]⟩
    rw [hrange, hsplit, h.ordered, h'.ordered, List.forall_mem_append]

/-- A block that is in order changes nothing. -/
theorem Numbering.meet {b : Block} (h : Numbering first n met refs) (hb : b.ReadsInOrder) :
    Numbering first n (b :: met) refs := by
  refine ⟨h.complete, ?_⟩
  rw [h.ordered, List.forall_mem_cons]
  exact (and_iff_right hb).symm

/-- A figure: the numbers of the caption come before those of the content, and are read last. -/
theorem Numbering.figure {content : List Block} {caption : List Inline}
    (hcaption : Numbering first n [] refs) (hcontent : Numbering (first + n) n' met refs')
    (hn : n = 0 ↔ inlinesNotes caption = 0) (hn' : n' = 0 ↔ blocksNotes content = 0) :
    Numbering first (n + n') (.figure content caption :: met) (refs' ++ refs) := by
  have hboth := hcaption.append hcontent
  refine ⟨List.perm_append_comm.trans hboth.complete, ?_⟩
  rw [List.forall_mem_cons, Block.ReadsInOrder, ← hn, ← hn']
  rw [List.nil_append] at hboth
  by_cases hempty : n' = 0 ∨ n = 0
  · -- with one of the two empty it does not matter which is read first
    have hswap : refs' ++ refs = refs ++ refs' := by
      rcases hempty with h0 | h0
      · have : refs' = [] := List.length_eq_zero_iff.mp (hcontent.length_eq.trans h0)
        rw [this, List.nil_append, List.append_nil]
      · have : refs = [] := List.length_eq_zero_iff.mp (hcaption.length_eq.trans h0)
        rw [this, List.nil_append, List.append_nil]
    rw [hswap, hboth.ordered]
    exact (and_iff_right hempty).symm
  · -- otherwise the first number that is read is one of the content, and too great
    refine iff_of_false (fun heq => ?_) fun h => hempty h.1
    obtain ⟨hne', hne⟩ := not_or.mp hempty
    obtain ⟨k, rest, hrefs⟩ : ∃ k rest, refs' = k :: rest := by
      refine List.exists_cons_of_ne_nil fun hnil => hne' ?_
      rw [← hcontent.length_eq, hnil, List.length_nil]
    have hk : k ∈ List.range' (first + n + 1) n' :=
      hcontent.complete.subset (hrefs ▸ List.mem_cons_self)
    obtain ⟨count, hcount⟩ : ∃ count, n + n' = count + 1 := ⟨n + n' - 1, by omega⟩
    rw [hrefs, hcount, List.range'_succ, List.cons_append] at heq
    have hfirst := (List.cons.inj heq).1
    have hlow := (List.mem_range'_1.mp hk).1
    omega

end numbering

/-! ### Steps of the writer -/

/-- The account of a way from one state of the writer to another: the notes that were queued, the
blocks that were met, and the landmarks of what was written. The references go on counting, and the
slugs are those of the headings that were met. -/
structure Walked (w w' : Writer) (new : List (List Block)) (met : List Block) (m : Landmarks) :
    Prop where
  queue : w'.notes = w.notes ++ new
  slugs : w'.slugs = w.slugs ++ m.slugs
  heads : m.slugs = slugsFor w.slugs (met.filterMap Block.headingText?)
  numbers : Numbering w.notes.length new.length met m.refs

theorem walked_nil (w : Writer) : Walked w w [] [] {} where
  queue := (List.append_nil _).symm
  slugs := (List.append_nil _).symm
  heads := rfl
  numbers := numbering_nil _

section walked

variable {w w' w'' : Writer} {new new' : List (List Block)} {met met' : List Block}
  {m m' : Landmarks}

theorem Walked.trans (h : Walked w w' new met m) (h' : Walked w' w'' new' met' m') :
    Walked w w'' (new ++ new') (met ++ met') (m ++ m') where
  queue := by rw [h'.queue, h.queue, List.append_assoc]
  slugs := by rw [h'.slugs, h.slugs, List.append_assoc, Landmarks.slugs_append]
  heads := by
    rw [Landmarks.slugs_append, List.filterMap_append, slugsFor_append, ← h.heads, ← h.slugs,
      ← h'.heads]
  numbers := by
    have hnumbers := h'.numbers
    rw [h.queue, List.length_append] at hnumbers
    rw [List.length_append]
    exact h.numbers.append hnumbers

theorem Walked.meet {b : Block} (h : Walked w w' new met m) (hhead : b.headingText? = none)
    (hb : b.ReadsInOrder) : Walked w w' new (b :: met) m where
  queue := h.queue
  slugs := h.slugs
  heads := by rw [List.filterMap_cons_none hhead, h.heads]
  numbers := h.numbers.meet hb

end walked

/-- A step that, if it succeeds, goes its way through the blocks of a part: those that it meets, and
those inside the notes that it queues, are all blocks `within` the part, and its result `bears` the
landmarks of the way. -/
def Walks {α : Type} (step : Render α) (within : List Block)
    (bears : α → List Block → Landmarks → Prop) : Prop :=
  ∀ ⦃w : Writer⦄ ⦃a : α⦄ ⦃w' : Writer⦄, step w = .ok (a, w') →
    ∃ new met m, Walked w w' new met m ∧ (met ++ new.flatMap blocksWithin).Perm within ∧
      bears a met m

/-- Two ways one after the other have met all blocks of both parts. -/
theorem perm_append_queued {met met' within within' : List Block} {new new' : List (List Block)}
    (h : (met ++ new.flatMap blocksWithin).Perm within)
    (h' : (met' ++ new'.flatMap blocksWithin).Perm within') :
    (met ++ met' ++ (new ++ new').flatMap blocksWithin).Perm (within ++ within') := by
  refine List.Perm.trans ?_ (h.append h')
  rw [List.flatMap_append, List.append_assoc, List.append_assoc]
  refine List.Perm.append_left met ?_
  rw [← List.append_assoc, ← List.append_assoc]
  exact List.perm_append_comm.append_right _

section steps

variable {α β : Type} {within within' : List Block} {bears : α → List Block → Landmarks → Prop}
  {bears' : β → List Block → Landmarks → Prop} {step : Render α} {next : α → Render β}

theorem Walks.pure {a : α} (h : bears a [] {}) : Walks (Pure.pure a) [] bears := by
  rintro w _ _ ⟨⟩
  exact ⟨[], [], {}, walked_nil w, .refl _, h⟩

theorem Walks.throw (e : RenderError) :
    Walks (MonadExcept.throw e : Render α) within bears := by
  intro w a w' h
  cases h

/-- One step after another. -/
theorem Walks.bind (h : Walks step within bears)
    (hnext : ∀ a met m, bears a met m →
      Walks (next a) within' fun b met' m' => bears' b (met ++ met') (m ++ m')) :
    Walks (step >>= next) (within ++ within') bears' := by
  intro w b w'' hrun
  obtain ⟨a, w', hstep, hrest⟩ := exists_of_bind hrun
  obtain ⟨new, met, m, hwalked, hwithin, hbears⟩ := h hstep
  obtain ⟨new', met', m', hwalked', hwithin', hbears'⟩ := hnext a met m hbears hrest
  exact ⟨new ++ new', met ++ met', m ++ m', hwalked.trans hwalked',
    perm_append_queued hwithin hwithin', hbears'⟩

/-- A step and what is made of its result. -/
theorem Walks.map (h : Walks step within bears) {f : α → β}
    (hf : ∀ a met m, bears a met m → bears' (f a) met m) :
    Walks (step >>= fun a => Pure.pure (f a)) within bears' := by
  have hmap : Walks (step >>= fun a => Pure.pure (f a)) (within ++ []) bears' := by
    refine h.bind fun a met m ha => .pure ?_
    rw [List.append_nil, Landmarks.append_empty]
    exact hf a met m ha
  rwa [List.append_nil] at hmap

/-- A block that is met before what is inside it. -/
theorem Walks.meet {bears : α → Landmarks → Prop} {b : Block} (hhead : b.headingText? = none)
    (hb : b.ReadsInOrder) (h : Walks step within fun a _ m => bears a m) :
    Walks step (b :: within) fun a _ m => bears a m := by
  intro w a w' hrun
  obtain ⟨new, met, m, hwalked, hwithin, hbears⟩ := h hrun
  exact ⟨new, b :: met, m, hwalked.meet hhead hb, hwithin.cons b, hbears⟩

end steps

/-- A note is queued, and no block is met. -/
theorem addNote_walks (content : List Block) :
    Walks (addNote content) (blocksWithin content) fun n met m => met = [] ∧ m = ⟨[], [n]⟩ := by
  rintro w _ _ ⟨⟩
  refine ⟨[content], [], ⟨[], [w.notes.length + 1]⟩, ⟨rfl, (List.append_nil _).symm, rfl, ?_⟩, ?_,
    rfl, ?_⟩
  · exact ⟨.refl _, by simp⟩
  · simp
  · simp

/-- A heading is met when it takes its slug. -/
theorem takeSlug_walks (level : Int) (text : List Inline) :
    Walks (takeSlug (plainText text)) [.heading level text] fun slug _ m => m = ⟨[slug], []⟩ := by
  rintro w _ _ ⟨⟩
  refine ⟨[], [.heading level text], ⟨[_], []⟩, ⟨(List.append_nil _).symm, rfl, rfl, ?_⟩, .refl _,
    rfl⟩
  exact (numbering_nil _).meet trivial

/-! ### The tree -/

/-- What is written of inline content, which meets no block. -/
def BearsInline (html : String) (met : List Block) (m : Landmarks) : Prop :=
  met = [] ∧ Bears html m

theorem BearsInline.append {s t : String} {met met' : List Block} {m m' : Landmarks}
    (hs : BearsInline s met m) (ht : BearsInline t met' m') :
    BearsInline (s ++ t) (met ++ met') (m ++ m') := by
  obtain ⟨rfl, hs⟩ := hs
  obtain ⟨rfl, ht⟩ := ht
  exact ⟨rfl, hs.append ht⟩

theorem bearsInline_escape (s : String) : BearsInline (escape s) [] {} :=
  ⟨rfl, bears_compositional.escape s⟩

mutual

theorem inlineHtml_walks : ∀ i : Inline, Walks (inlineHtml i) i.within BearsInline
  | .text text => .pure (bearsInline_escape text)
  | .styled style content =>
      (inlinesHtml_walks content).map fun inner _ _ hinner =>
        ⟨hinner.1, .encloses (encloses_styled style inner) hinner.2⟩
  | .quote kind content => by
      refine (inlinesHtml_walks content).map fun inner met m hinner => ?_
      have hopen := bearsInline_escape kind.marks.1
      have hclose := bearsInline_escape kind.marks.2
      simpa using (hopen.append hinner).append hclose
  | .code content language =>
      .pure ⟨rfl, .encloses (encloses_code language _) (bears_compositional.escape content)⟩
  | .space => .pure ⟨rfl, .text (by decide)⟩
  | .link target content label _ =>
      (linkHtml_walks target label content).map fun inner _ _ hinner =>
        ⟨hinner.1, .encloses (encloses_link target inner) hinner.2⟩
  | .footnote content => by
      refine (addNote_walks content).map fun n met m hnote => ?_
      obtain ⟨rfl, rfl⟩ := hnote
      exact ⟨rfl, bears_noteReference n⟩
  | .math tex => .pure ⟨rfl, bears_compositional.math tex⟩
  | .foreign _ => .throw _

theorem inlinesHtml_walks : ∀ run : List Inline,
    Walks (inlinesHtml run) (inlinesWithin run) BearsInline
  | [] => .pure ⟨rfl, .text (by decide)⟩
  | i :: rest =>
      (inlineHtml_walks i).bind fun _ _ _ hhere =>
        (inlinesHtml_walks rest).map fun _ _ _ hafter => hhere.append hafter

theorem linkHtml_walks (target : String) (label : Option String) :
    ∀ content : Option (List Inline),
      Walks (linkHtml target label content) (optionWithin content) BearsInline
  | some content => inlinesHtml_walks content
  | none => .pure (bearsInline_escape _)

end

/-- The label of an item meets no block. -/
theorem labelHtml_walks (label : Option (List Inline)) :
    Walks (labelHtml label) (optionWithin label) BearsInline := by
  cases label with
  | none => exact .pure ⟨rfl, .text (by decide)⟩
  | some label =>
      refine (inlinesHtml_walks label).map fun inner met m hinner => ⟨hinner.1, ?_⟩
      have hspan := Bears.encloses (.classed "span" "label" _ (by decide) (by decide) (by decide))
        hinner.2.strip
      have hspace : Bears " " {} := .text (by decide)
      have h := hspan.append hspace
      rw [Landmarks.append_empty] at h
      refine Eq.subst (motive := (Bears · m)) ?_ h
      apply String.toList_inj.mp
      simp

/-- What a queue of new notes counts: it is empty just if the part it comes from has no notes. -/
theorem length_eq_zero_iff_of_queuedNotes {new : List (List Block)} {size : Nat}
    (h : queuedNotes new = size) : new.length = 0 ↔ size = 0 := by
  cases new with
  | nil => simp [← h, queuedNotes]
  | cons note new =>
      rw [← h, queuedNotes, List.length_cons]
      omega

mutual

theorem blockHtml_walks : ∀ b : Block,
    Walks (blockHtml b) (b :: b.inside) fun html _ m => Bears html m
  | .plain content =>
      .meet rfl trivial ((inlinesHtml_walks content).map fun _ _ _ hinner => hinner.2.strip)
  | .par content => by
      refine Walks.meet rfl trivial ?_
      rw [blockHtml]
      split
      · next hblank =>
        rw [Block.inside, inlinesWithin_of_isBlankRun hblank]
        exact .pure (.text (by decide))
      · exact (inlinesHtml_walks content).map fun inner met m hinner =>
          .encloses (.bare "p" _ (by decide) (by decide)) hinner.2.strip
  | .codeBlock language content => by
      refine Walks.meet rfl trivial
        ((inlinesHtml_walks content).map fun inner met m hinner => ?_)
      have hcode := Bears.encloses (encloses_code language inner) hinner.2
      refine .encloses ((Encloses.bare "pre" _ (by decide) (by decide)).of_eq ?_) hcode
      apply String.toList_inj.mp
      simp
  | .blockQuote content => by
      refine Walks.meet rfl trivial
        ((blockParts_walks content).map fun inner met m hinner => ?_)
      refine .encloses ((Encloses.bare "blockquote" _ (by decide) (by decide)).of_eq ?_)
        hinner.lines
      apply String.toList_inj.mp
      simp
  | .tagged content metadata => by
      refine Walks.meet rfl trivial
        ((blockParts_walks content).map fun inner met m hinner => ?_)
      refine .encloses ((encloses_tagged metadata _).of_eq ?_) hinner.lines
      apply String.toList_inj.mp
      simp
  | .list kind items => by
      refine Walks.meet rfl trivial
        ((itemParts_walks items).map fun inner met m hinner => ?_)
      rw [joinLines_between]
      exact .encloses (encloses_list kind _) hinner.between
  | .termList items => by
      refine Walks.meet rfl trivial
        ((termParts_walks items).map fun inner met m hinner => ?_)
      rw [joinLines_between]
      exact .encloses (.bare "dl" _ (by decide) (by decide)) hinner.between
  | .heading level text => by
      rw [blockHtml]
      split
      · next hlevel =>
        refine (takeSlug_walks level text).bind fun slug met m hslug =>
          (inlinesHtml_walks text).map fun inner met' m' hinner => ?_
        rw [hslug]
        exact bears_headingText hlevel slug hinner.2.strip
      · exact .throw _
  | .rule => Walks.meet rfl trivial (.pure bears_compositional.rule)
  | .table columns rows => by
      refine Walks.meet rfl trivial
        ((rowParts_walks rows).map fun inner met m hinner => ?_)
      rw [joinLines_between]
      exact .encloses (.bare "table" _ (by decide) (by decide)) hinner.between
  | .figure content caption => by
      intro w html w'' hrun
      rw [blockHtml] at hrun
      obtain ⟨text, w', hcaption, hrun⟩ := exists_of_bind hrun
      obtain ⟨inner, w₁, hcontent, hrun⟩ := exists_of_bind hrun
      cases hrun
      obtain ⟨new, met, m, hwalked, hwithin, rfl, htext⟩ := inlinesHtml_walks caption hcaption
      obtain ⟨new', met', m', hwalked', hwithin', hinner⟩ := blockParts_walks content hcontent
      -- what was queued is what counts
      obtain ⟨_, hnew, hsize, -⟩ := inlinesHtml_refers caption hcaption
      obtain ⟨_, hnew', hsize', -⟩ := blockParts_refers content hcontent
      rw [← List.append_cancel_left (hwalked.queue.symm.trans hnew)] at hsize
      rw [← List.append_cancel_left (hwalked'.queue.symm.trans hnew')] at hsize'
      have hnumbers := hwalked'.numbers
      rw [hwalked.queue, List.length_append] at hnumbers
      have hboth := hwalked.trans hwalked'
      have hslugs : m.slugs = [] := hwalked.heads
      refine ⟨new ++ new', .figure content caption :: met', m' ++ m, ⟨hboth.queue, ?_, ?_, ?_⟩,
        ?_, ?_⟩
      · rw [hboth.slugs, Landmarks.slugs_append, Landmarks.slugs_append, hslugs, List.append_nil,
          List.nil_append]
      · rw [Landmarks.slugs_append, hslugs, List.append_nil, hwalked'.heads, hwalked.slugs, hslugs,
          List.append_nil, List.filterMap_cons_none rfl]
      · rw [List.length_append]
        exact hwalked.numbers.figure hnumbers (length_eq_zero_iff_of_queuedNotes hsize)
          (length_eq_zero_iff_of_queuedNotes hsize')
      · refine List.Perm.cons _ ((perm_append_queued hwithin hwithin').trans ?_)
        exact List.perm_append_comm
      · -- the caption is written first and stands last
        have hnewline := bears_compositional.newline
        have hlines := hnewline.append
          (hinner.joinLines.append (htext.strip.caption.append hnewline))
        rw [Landmarks.empty_append, Landmarks.append_empty] at hlines
        refine .encloses ((Encloses.bare "figure" _ (by decide) (by decide)).of_eq ?_) hlines
        apply String.toList_inj.mp
        simp
  | .defn kind content => by
      refine Walks.meet rfl trivial
        ((blockParts_walks content).map fun inner met m hinner => ?_)
      refine .encloses ((encloses_defn kind _).of_eq ?_) hinner.lines
      apply String.toList_inj.mp
      simp
  | .mathBlock tex => Walks.meet rfl trivial (.pure (bears_compositional.mathBlock tex))
  | .foreign _ => .throw _

theorem blockParts_walks (bs : List Block) :
    Walks (blockParts bs) (blocksWithin bs) fun parts _ m => AllBear parts m := by
  cases bs with
  | nil => exact .pure .nil
  | cons b rest =>
      refine (blockHtml_walks b).bind fun here met m hhere => ?_
      exact (blockParts_walks rest).map fun after met' m' hafter => .consUnlessEmpty hhere hafter

theorem tightHtml_walks (bs : List Block) :
    Walks (tightHtml bs) (blocksWithin bs) fun html _ m => Bears html m := by
  cases bs with
  | nil => exact .pure (.text (by decide))
  | cons b rest =>
      unfold tightHtml
      split
      · next content =>
        rw [blocksWithin, blocksWithin, List.append_nil]
        exact Walks.meet rfl trivial
          ((inlinesHtml_walks content).map fun inner met m hinner => hinner.2.strip)
      · next content =>
        rw [blocksWithin, blocksWithin, List.append_nil]
        exact Walks.meet rfl trivial
          ((inlinesHtml_walks content).map fun inner met m hinner => hinner.2.strip)
      · refine (blockHtml_walks b).bind fun here met m hhere => ?_
        refine (blockParts_walks rest).map fun after met' m' hafter => ?_
        exact (AllBear.consUnlessEmpty hhere hafter).joinLines

theorem itemParts_walks (items : List ListItem) :
    Walks (itemParts items) (itemsWithin items) fun parts _ m => AllBear parts m := by
  cases items with
  | nil => exact .pure .nil
  | cons item rest =>
      obtain ⟨content, label⟩ := item
      refine (labelHtml_walks label).bind fun label met m hlabel =>
        (tightHtml_walks content).bind fun inner met' m' hinner =>
        (itemParts_walks rest).map fun after met'' m'' hafter => ?_
      rw [← Landmarks.append_assoc]
      refine .cons (.encloses ((Encloses.bare "li" _ (by decide) (by decide)).of_eq ?_)
        (hlabel.2.append hinner)) hafter
      apply String.toList_inj.mp
      simp

theorem termParts_walks (items : List TermItem) :
    Walks (termParts items) (termsWithin items) fun parts _ m => AllBear parts m := by
  cases items with
  | nil => exact .pure .nil
  | cons item rest =>
      obtain ⟨term, content⟩ := item
      refine (inlinesHtml_walks term).bind fun term met m hterm =>
        (tightHtml_walks content).bind fun inner met' m' hinner =>
        (termParts_walks rest).map fun after met'' m'' hafter => ?_
      exact .cons (.encloses (.bare "dt" _ (by decide) (by decide)) hterm.2.strip)
        (.cons (.encloses (.bare "dd" _ (by decide) (by decide)) hinner) hafter)

theorem cellsHtml_walks : ∀ cells : List TableCell,
    Walks (cellsHtml cells) (cellsWithin cells) fun html _ m => Bears html m
  | [] => .pure (.text (by decide))
  | .mk content alignment rowSpan colSpan :: rest =>
      (tightHtml_walks content).bind fun inner _ _ hinner =>
        (cellsHtml_walks rest).map fun _ _ _ hafter =>
          (Bears.encloses (encloses_cell alignment rowSpan colSpan inner) hinner).append hafter

theorem rowParts_walks : ∀ rows : List (List TableCell),
    Walks (rowParts rows) (rowsWithin rows) fun parts _ m => AllBear parts m
  | [] => .pure .nil
  | row :: rest =>
      (cellsHtml_walks row).bind fun _ _ _ hcells =>
        (rowParts_walks rest).map fun _ _ _ hafter =>
          .cons (.encloses (.bare "tr" _ (by decide) (by decide)) hcells) hafter

end

end Html

end Markup
