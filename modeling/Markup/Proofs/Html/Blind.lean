import Markup.Proofs.Html.Tracks

/-! # The writer does not look back

What the writer writes next depends on what it has written so far only through the number of notes
in the queue and the slugs taken: these are what numbers and anchors are made of.  The notes
themselves it reads only when their turn comes.  `Blind` says so of a step, with the state it leaves
behind; every step on the tree is one (`blockHtml_blind` and its fellows), and so the loop over the
notes is the same for two queues that are the same from its place on (`noteParts_blind`). -/

namespace Markup.Html

/-! ### Steps -/

/-- What is written next gets the same numbers and slugs. -/
def Level (w v : Writer) : Prop := v.slugs = w.slugs ∧ v.notes.length = w.notes.length

/-- It stays so when as many notes are queued. -/
theorem Level.append {w v w' : Writer} {new new' : List (List Block)} (h : Level w v)
    (hnew : w'.notes = w.notes ++ new) (hlength : new'.length = new.length) :
    Level w' ⟨v.notes ++ new', w'.slugs⟩ := by
  refine ⟨rfl, ?_⟩
  rw [hnew, List.length_append, List.length_append, h.2, hlength]

/-- A step that adds to the queue, and depends on what was written only as far as numbers and slugs
do. -/
def Blind {α : Type} (x : Render α) : Prop :=
  ∀ ⦃w : Writer⦄ ⦃a : α⦄ ⦃w' : Writer⦄, x w = .ok (a, w') → ∃ new, w'.notes = w.notes ++ new ∧
    ∀ v, Level w v → x v = .ok (a, ⟨v.notes ++ new, w'.slugs⟩)

namespace Blind

variable {α β : Type} {x : Render α}

theorem pure (a : α) : Blind (Pure.pure a) := by
  rintro w _ _ ⟨⟩
  refine ⟨[], (List.append_nil _).symm, fun v hv => ?_⟩
  rw [← hv.1, List.append_nil]
  rfl

theorem throw (e : RenderError) : Blind (MonadExcept.throw e : Render α) := by
  rintro w a w' ⟨⟩

theorem bind {next : α → Render β} (h : Blind x) (hnext : ∀ a, Blind (next a)) :
    Blind (x >>= next) := by
  intro w b w'' hrun
  obtain ⟨a, w', hx, hrest⟩ := exists_of_bind hrun
  obtain ⟨new, hnotes, hsame⟩ := h hx
  obtain ⟨new', hnotes', hsame'⟩ := hnext a hrest
  refine ⟨new ++ new', by rw [hnotes', hnotes, List.append_assoc], fun v hv => ?_⟩
  change (x v >>= fun r => next r.1 r.2) = _
  rw [hsame v hv, ← List.append_assoc]
  exact hsame' _ (hv.append hnotes rfl)

theorem map {f : α → β} (h : Blind x) : Blind (x >>= fun a => Pure.pure (f a)) :=
  h.bind fun _ => .pure _

end Blind

theorem addNote_blind (content : List Block) : Blind (addNote content) := by
  rintro w _ _ ⟨⟩
  refine ⟨[content], rfl, fun v hv => ?_⟩
  change Except.ok ((v.notes ++ [content]).length, _) = Except.ok ((w.notes ++ [content]).length, _)
  rw [List.length_append, List.length_append, hv.2, ← hv.1]

theorem takeSlug_blind (text : String) : Blind (takeSlug text) := by
  rintro w _ _ ⟨⟩
  refine ⟨[], (List.append_nil _).symm, fun v hv => ?_⟩
  have hrun : ∀ u : Writer, takeSlug text u = .ok (freshSlug u.slugs (slugify text),
      ⟨u.notes, u.slugs ++ [freshSlug u.slugs (slugify text)]⟩) := fun _ => rfl
  rw [hrun, hv.1, List.append_nil]

/-! ### The tree -/

mutual

theorem inlineHtml_blind : ∀ i : Inline, Blind (inlineHtml i)
  | .text _ | .code _ _ | .space | .math _ => .pure _
  | .styled _ content | .quote _ content => (inlinesHtml_blind content).map
  | .link target content label _ => (linkHtml_blind target label content).map
  | .footnote content => (addNote_blind content).map
  | .foreign _ => .throw _

theorem inlinesHtml_blind : ∀ run : List Inline, Blind (inlinesHtml run)
  | [] => .pure _
  | i :: rest => (inlineHtml_blind i).bind fun _ => (inlinesHtml_blind rest).map

theorem linkHtml_blind (target : String) (label : Option String) :
    ∀ content : Option (List Inline), Blind (linkHtml target label content)
  | some content => inlinesHtml_blind content
  | none => .pure _

theorem blockHtml_blind : ∀ b : Block, Blind (blockHtml b)
  | .plain content => (inlinesHtml_blind content).map
  | .par content => by
      rw [blockHtml]
      split
      · exact .pure _
      · exact (inlinesHtml_blind content).map
  | .codeBlock _ content => (inlinesHtml_blind content).map
  | .blockQuote content | .tagged content _ | .defn _ content => (blockParts_blind content).map
  | .list _ items => (itemParts_blind items).map
  | .termList items => (termParts_blind items).map
  | .heading level text => by
      rw [blockHtml]
      split
      · exact (takeSlug_blind _).bind fun _ => (inlinesHtml_blind text).map
      · exact .throw _
  | .rule | .mathBlock _ => .pure _
  | .table _ rows => (rowParts_blind rows).map
  | .figure content caption =>
      (inlinesHtml_blind caption).bind fun _ => (blockParts_blind content).map
  | .foreign _ => .throw _

theorem blockParts_blind (bs : List Block) : Blind (blockParts bs) := by
  cases bs with
  | nil => exact .pure _
  | cons b rest => exact (blockHtml_blind b).bind fun _ => (blockParts_blind rest).map

theorem tightHtml_blind (bs : List Block) : Blind (tightHtml bs) := by
  cases bs with
  | nil => exact .pure _
  | cons b rest =>
      unfold tightHtml
      split
      · next content => exact (inlinesHtml_blind content).map
      · next content => exact (inlinesHtml_blind content).map
      · exact (blockHtml_blind b).bind fun _ => (blockParts_blind rest).map

theorem itemParts_blind (items : List ListItem) : Blind (itemParts items) := by
  cases items with
  | nil => exact .pure _
  | cons item rest =>
      obtain ⟨content, label⟩ := item
      exact (labelHtml_blind label).bind fun _ => (tightHtml_blind content).bind fun _ =>
        (itemParts_blind rest).map

theorem labelHtml_blind : ∀ label : Option (List Inline), Blind (labelHtml label)
  | none => .pure _
  | some label => (inlinesHtml_blind label).map

theorem termParts_blind (items : List TermItem) : Blind (termParts items) := by
  cases items with
  | nil => exact .pure _
  | cons item rest =>
      obtain ⟨term, content⟩ := item
      exact (inlinesHtml_blind term).bind fun _ => (tightHtml_blind content).bind fun _ =>
        (termParts_blind rest).map

theorem cellsHtml_blind : ∀ cells : List TableCell, Blind (cellsHtml cells)
  | [] => .pure _
  | .mk content _ _ _ :: rest =>
      (tightHtml_blind content).bind fun _ => (cellsHtml_blind rest).map

theorem rowParts_blind : ∀ rows : List (List TableCell), Blind (rowParts rows)
  | [] => .pure _
  | row :: rest => (cellsHtml_blind row).bind fun _ => (rowParts_blind rest).map

end

/-! ### Notes -/

section notes

variable {turns i : Nat} {w w' : Writer} {content : List Block}
  {queue rest new : List (List Block)}

/-- What is behind the first note to come is to come after it, and so are the notes inside it. -/
theorem drop_of_turn (hqueue : queue.drop i = content :: rest) :
    (queue ++ new).drop (i + 1) = rest ++ new := by
  have hlt : i + 1 ≤ queue.length := by
    have hlength := congrArg List.length hqueue
    rw [List.length_drop, List.length_cons] at hlength
    omega
  rw [List.drop_append_of_le_length hlt, ← List.tail_drop, hqueue, List.tail_cons]

theorem get_bind {α : Type} (next : Writer → Render α) (w : Writer) :
    ((get : Render Writer) >>= next) w = next w w := rfl

theorem noteParts_of_nil (hqueue : w.notes.drop i = []) : noteParts turns i w = .ok ([], w) := by
  cases turns with
  | zero => rfl
  | succ turns =>
      have hnone : w.notes[i]? = none := by rw [← List.head?_drop, hqueue, List.head?_nil]
      rw [noteParts, get_bind, hnone]
      rfl

/-- One turn of the loop. -/
theorem noteParts_turn_iff {items : List String} (hqueue : w.notes.drop i = content :: rest) :
    noteParts (turns + 1) i w = .ok (items, w') ↔ ∃ body v after,
      tightHtml content w = .ok (body, v) ∧ noteParts turns (i + 1) v = .ok (after, w') ∧
        items = noteItem (i + 1) body :: after := by
  have hsome : w.notes[i]? = some content := by rw [← List.head?_drop, hqueue, List.head?_cons]
  have hturn : noteParts (turns + 1) i w = (tightHtml content >>= fun body =>
      noteParts turns (i + 1) >>= fun after => Pure.pure (noteItem (i + 1) body :: after)) w := by
    rw [noteParts, get_bind, hsome]
  rw [hturn]
  constructor
  · intro h
    obtain ⟨body, v, hbody, h⟩ := exists_of_bind h
    obtain ⟨after, v', hafter, h⟩ := exists_of_bind h
    cases h
    exact ⟨body, v, after, hbody, hafter, rfl⟩
  · rintro ⟨body, v, after, hbody, hafter, rfl⟩
    change (tightHtml content w >>= fun r => noteParts turns (i + 1) r.2 >>= fun q =>
      .ok (noteItem (i + 1) r.1 :: q.1, q.2)) = _
    rw [hbody]
    change (noteParts turns (i + 1) v >>= fun q => .ok (noteItem (i + 1) body :: q.1, q.2)) = _
    rw [hafter]
    rfl

end notes

/-- What is to come is the same if the queues are the same from here on. -/
theorem noteParts_blind {turns i : Nat} {w v w' : Writer} {items : List String}
    (hqueue : v.notes.drop i = w.notes.drop i) (hlevel : Level w v)
    (h : noteParts turns i w = .ok (items, w')) : ∃ v', noteParts turns i v = .ok (items, v') := by
  induction turns generalizing i w v items with
  | zero =>
      cases h
      exact ⟨v, rfl⟩
  | succ turns ih =>
      cases hnext : w.notes.drop i with
      | nil =>
          rw [noteParts_of_nil hnext] at h
          cases h
          exact ⟨v, noteParts_of_nil (hqueue.trans hnext)⟩
      | cons content rest =>
          obtain ⟨body, w₁, after, hbody, hafter, rfl⟩ := (noteParts_turn_iff hnext).mp h
          obtain ⟨new, hnew, hsame⟩ := tightHtml_blind content hbody
          have hnext' := hqueue.trans hnext
          have hqueue' : (v.notes ++ new).drop (i + 1) = w₁.notes.drop (i + 1) := by
            rw [hnew, drop_of_turn hnext', drop_of_turn hnext]
          obtain ⟨v', hafter'⟩ := ih hqueue' (hlevel.append hnew rfl) hafter
          exact ⟨v', (noteParts_turn_iff hnext').mpr
            ⟨body, _, after, hsame v hlevel, hafter', rfl⟩⟩

end Markup.Html
