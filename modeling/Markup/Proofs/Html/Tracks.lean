import Markup.Proofs.Html.Queue

/-! # Two documents written side by side

Two documents that differ little are written in the same steps: the writer takes the same slugs and
the same notes, and fails where it fails for the other one (`Tracks`).  What is kept along with this
is that the two texts are the same, or that the second is the longer one (`Grown`), up to the
finished pages (`render_tracks`). -/

namespace Markup.Html

open Text

/-! ### Two writers side by side -/

/-- Two steps of the writer that fail with the same error, or leave the writer in the same state
with results that are related. -/
def Tracks {α β : Type} (R : α → β → Prop) (x : Render α) (y : Render β) : Prop :=
  ∀ w, (∃ e, x w = .error e ∧ y w = .error e) ∨
    ∃ a b w', x w = .ok (a, w') ∧ y w = .ok (b, w') ∧ R a b

namespace Tracks

variable {α β γ δ : Type} {R : α → β → Prop} {S : γ → δ → Prop} {x : Render α} {y : Render β}

theorem refl {R : α → α → Prop} (hR : ∀ a, R a a) (x : Render α) : Tracks R x x := by
  intro w
  cases hx : x w with
  | error e => exact .inl ⟨e, rfl, rfl⟩
  | ok r => exact .inr ⟨r.1, r.1, r.2, rfl, rfl, hR r.1⟩

theorem pure {a : α} {b : β} (h : R a b) : Tracks R (Pure.pure a) (Pure.pure b) :=
  fun w => .inr ⟨a, b, w, rfl, rfl, h⟩

theorem bind {f : α → Render γ} {g : β → Render δ} (h : Tracks R x y)
    (hnext : ∀ a b, R a b → Tracks S (f a) (g b)) : Tracks S (x >>= f) (y >>= g) := by
  intro w
  change (∃ e, (x w >>= fun r => f r.1 r.2) = .error e ∧ (y w >>= fun r => g r.1 r.2) = .error e) ∨
    ∃ c d w', (x w >>= fun r => f r.1 r.2) = .ok (c, w') ∧
      (y w >>= fun r => g r.1 r.2) = .ok (d, w') ∧ S c d
  rcases h w with ⟨e, hx, hy⟩ | ⟨a, b, w', hx, hy, hab⟩
  · rw [hx, hy]
    exact .inl ⟨e, rfl, rfl⟩
  · rw [hx, hy]
    exact hnext a b hab w'

/-- What is made of the two results. -/
theorem map {f : α → γ} {g : β → δ} (h : Tracks R x y) (hfg : ∀ a b, R a b → S (f a) (g b)) :
    Tracks S (x >>= fun a => Pure.pure (f a)) (y >>= fun b => Pure.pure (g b)) :=
  h.bind fun a b hab => .pure (hfg a b hab)

/-- The same step comes first. -/
theorem behind {z : Render α} {f : α → Render γ} {g : α → Render δ}
    (h : ∀ a, Tracks S (f a) (g a)) : Tracks S (z >>= f) (z >>= g) :=
  (refl (fun _ => rfl) z : Tracks Eq z z).bind fun a _ hab => hab ▸ h a

theorem mono {S : α → β → Prop} (h : Tracks R x y) (hRS : ∀ a b, R a b → S a b) :
    Tracks S x y := by
  intro w
  rcases h w with herror | ⟨a, b, w', hx, hy, hab⟩
  · exact .inl herror
  · exact .inr ⟨a, b, w', hx, hy, hRS a b hab⟩

end Tracks

/-! ### The same or longer -/

/-- The same text, or a longer one where there was some. -/
def Grown : Bool → String → String → Prop
  | false, s, t => t = s
  | true, s, t => 0 < s.length ∧ s.length < t.length

/-- Number of characters of parts on lines of their own. -/
def linesLength : List String → Nat
  | [] => 0
  | part :: parts => part.length + 1 + linesLength parts

/-- The same parts, or longer ones. -/
def PartsGrown : Bool → List String → List String → Prop
  | false, ps, qs => qs = ps
  | true, ps, qs => linesLength ps < linesLength qs

/-- The same parts of blocks, or longer ones where there were some. -/
def BlocksGrown (more : Bool) (ps qs : List String) : Prop :=
  PartsGrown more ps qs ∧ (more = true → 2 ≤ linesLength ps)

section grown

variable {more : Bool} {s t : String} {ps qs : List String}

theorem linesLength_cons (s : String) (ps : List String) :
    linesLength (s :: ps) = s.length + 1 + linesLength ps := rfl

theorem linesLength_append (ps qs : List String) :
    linesLength (ps ++ qs) = linesLength ps + linesLength qs := by
  induction ps with
  | nil => rw [List.nil_append, linesLength, Nat.zero_add]
  | cons p ps ih =>
      rw [List.cons_append, linesLength_cons, linesLength_cons, ih]
      omega

theorem length_joinLines (ps : List String) : (joinLines ps).length = linesLength ps - 1 := by
  induction ps with
  | nil => rfl
  | cons s ps ih =>
      unfold joinLines at ih ⊢
      cases ps with
      | nil => simp [linesLength]
      | cons t ps =>
          have hline : "\n".length = 1 := rfl
          rw [String.intercalate_cons_cons, String.length_append, String.length_append, ih, hline,
            linesLength_cons s, linesLength_cons t]
          omega

theorem Grown.of_eq (h : s = t) : Grown false s t := h.symm

theorem Grown.same (s : String) : Grown false s s := rfl

theorem PartsGrown.same (ps : List String) : PartsGrown false ps ps := rfl

theorem BlocksGrown.same (ps : List String) : BlocksGrown false ps ps :=
  ⟨.same ps, fun h => by cases h⟩

theorem Grown.between (h : Grown more s t) (a b : String) :
    Grown more (a ++ s ++ b) (a ++ t ++ b) := by
  cases more with
  | false =>
      obtain rfl : t = s := h
      rfl
  | true =>
      obtain ⟨hsome, hless⟩ : 0 < s.length ∧ s.length < t.length := h
      simp only [Grown, String.length_append]
      omega

theorem PartsGrown.cons {more' : Bool} (hs : Grown more s t) (h : PartsGrown more' ps qs) :
    PartsGrown (more || more') (s :: ps) (t :: qs) := by
  cases more with
  | false =>
      obtain rfl : t = s := hs
      cases more' with
      | false =>
          obtain rfl : qs = ps := h
          rfl
      | true =>
          have hless : linesLength ps < linesLength qs := h
          change linesLength (t :: ps) < linesLength (t :: qs)
          rw [linesLength_cons, linesLength_cons]
          omega
  | true =>
      obtain ⟨-, hless⟩ : 0 < s.length ∧ s.length < t.length := hs
      have hle : linesLength ps ≤ linesLength qs := by
        cases more' with
        | false =>
            obtain rfl : qs = ps := h
            exact Nat.le_refl _
        | true => exact Nat.le_of_lt h
      change linesLength (s :: ps) < linesLength (t :: qs)
      rw [linesLength_cons, linesLength_cons]
      omega

/-- Parts on the lines between a first and a last one. -/
theorem PartsGrown.lines (h : PartsGrown more ps qs) {first : String} (hfirst : 0 < first.length)
    (last : String) :
    Grown more (joinLines ([first] ++ ps ++ [last])) (joinLines ([first] ++ qs ++ [last])) := by
  cases more with
  | false =>
      obtain rfl : qs = ps := h
      rfl
  | true =>
      have hless : linesLength ps < linesLength qs := h
      simp only [Grown, length_joinLines, linesLength_append, linesLength_cons]
      omega

theorem BlocksGrown.joinLines (h : BlocksGrown more ps qs) :
    Grown more (joinLines ps) (joinLines qs) := by
  obtain ⟨hparts, hsome⟩ := h
  cases more with
  | false =>
      obtain rfl : qs = ps := hparts
      rfl
  | true =>
      have hless : linesLength ps < linesLength qs := hparts
      have hmany := hsome rfl
      simp only [Grown, length_joinLines]
      omega

theorem isEmpty_of_length_pos (h : 0 < s.length) : s.isEmpty = false := by
  rw [Bool.eq_false_iff]
  intro hempty
  rw [String.isEmpty_iff.mp hempty] at h
  cases h

/-- One block alone, which is left out if it is empty. -/
theorem Grown.single (h : Grown more s t) :
    BlocksGrown more (if s.isEmpty then [] else [s]) (if t.isEmpty then [] else [t]) := by
  cases more with
  | false =>
      obtain rfl : t = s := h
      exact .same _
  | true =>
      obtain ⟨hsome, hless⟩ : 0 < s.length ∧ s.length < t.length := h
      rw [isEmpty_of_length_pos hsome, isEmpty_of_length_pos (Nat.lt_trans hsome hless)]
      refine ⟨?_, fun _ => ?_⟩
      · change linesLength [s] < linesLength [t]
        rw [linesLength_cons, linesLength_cons]
        omega
      · simp only [linesLength_cons, Bool.false_eq_true, if_false]
        omega

/-- A block in front, which is left out if it is empty. -/
theorem BlocksGrown.consUnlessEmpty (h : BlocksGrown more ps qs) (s : String) :
    BlocksGrown more (if s.isEmpty then ps else s :: ps) (if s.isEmpty then qs else s :: qs) := by
  split
  · exact h
  · obtain ⟨hparts, hsome⟩ := h
    refine ⟨?_, fun hmore => ?_⟩
    · have hcons : PartsGrown (false || more) (s :: ps) (s :: qs) :=
        .cons (.same s) hparts
      rwa [Bool.false_or] at hcons
    · have hmany := hsome hmore
      rw [linesLength_cons]
      omega

end grown

/-! ### Blocks and items -/

section blocks

variable {more : Bool}

theorem blockParts_nil : blockParts [] = Pure.pure [] := by rw [blockParts]

theorem blockParts_singleton (b : Block) : blockParts [b] =
    blockHtml b >>= fun here => Pure.pure (if here.isEmpty then [] else [here]) := by
  rw [blockParts, blockParts_nil]
  rfl

theorem Tracks.single {b b' : Block} (h : Tracks (Grown more) (blockHtml b) (blockHtml b')) :
    Tracks (BlocksGrown more) (blockParts [b]) (blockParts [b']) := by
  rw [blockParts_singleton, blockParts_singleton]
  exact h.map fun s t hst => hst.single

/-- Blocks between tags. -/
theorem Tracks.within {bs bs' : List Block}
    (h : Tracks (BlocksGrown more) (blockParts bs) (blockParts bs')) (first last : String) :
    Tracks (Grown more)
      (blockParts bs >>= fun inner => Pure.pure (first ++ joinLines inner ++ last))
      (blockParts bs' >>= fun inner => Pure.pure (first ++ joinLines inner ++ last)) :=
  h.map fun _ _ hparts => hparts.joinLines.between first last

theorem itemParts_cons_tracks {more' : Bool} {content content' : List Block}
    {rest rest' : List ListItem} (label : Option (List Inline))
    (h : Tracks (Grown more) (tightHtml content) (tightHtml content'))
    (hrest : Tracks (PartsGrown more') (itemParts rest) (itemParts rest')) :
    Tracks (PartsGrown (more || more')) (itemParts (.mk content label :: rest))
      (itemParts (.mk content' label :: rest')) := by
  rw [itemParts, itemParts]
  refine .behind fun label => h.bind fun s t hst => hrest.map fun ps qs hparts => ?_
  exact .cons (hst.between ("<li>" ++ label) "</li>") hparts

theorem termParts_cons_tracks {more' : Bool} {content content' : List Block}
    {rest rest' : List TermItem} (term : List Inline)
    (h : Tracks (Grown more) (tightHtml content) (tightHtml content'))
    (hrest : Tracks (PartsGrown more') (termParts rest) (termParts rest')) :
    Tracks (PartsGrown (more || more')) (termParts (.mk term content :: rest))
      (termParts (.mk term content' :: rest')) := by
  rw [termParts, termParts]
  refine .behind fun term => h.bind fun s t hst => hrest.map fun ps qs hparts => ?_
  have hcons := PartsGrown.cons (.same ("<dt>" ++ strip term ++ "</dt>"))
    (.cons (hst.between "<dd>" "</dd>") hparts)
  rwa [Bool.false_or] at hcons

end blocks

/-! ### Lone paragraphs -/

/-- The blocks are one paragraph, whose tags are left out in an item. -/
def isLone : List Block → Bool
  | [.par _] | [.plain _] => true
  | _ => false

theorem tightHtml_of_isLone {bs : List Block} (h : isLone bs = true) :
    ∃ content, (bs = [.par content] ∨ bs = [.plain content]) ∧
      tightHtml bs = inlinesHtml content >>= fun s => Pure.pure (strip s) := by
  match bs, h with
  | [.par content], _ => exact ⟨content, .inl rfl, by rw [tightHtml]⟩
  | [.plain content], _ => exact ⟨content, .inr rfl, by rw [tightHtml]⟩

/-- Blocks that are no lone paragraph stand on lines of their own. -/
theorem tightHtml_of_not_isLone : ∀ {bs : List Block}, isLone bs = false →
    tightHtml bs = blockParts bs >>= fun parts => Pure.pure (joinLines parts)
  | [], _ => by
      rw [tightHtml, blockParts]
      rfl
  | b :: rest, h => by
      have hparts : tightHtml (b :: rest) = (do
          let here ← blockHtml b
          let after ← blockParts rest
          return joinLines (if here.isEmpty then after else here :: after)) := by
        rw [tightHtml]
        · intro content hb hrest
          subst hb hrest
          cases h
        · intro content hb hrest
          subst hb hrest
          cases h
      rw [hparts, blockParts]
      simp only [bind_assoc, pure_bind]

/-! ### Documents -/

section documents

variable {more : Bool} {s t : String}

theorem Grown.eq_iff (h : Grown more s t) : t = s ↔ more = false := by
  cases more with
  | false => exact iff_of_true h rfl
  | true =>
      obtain ⟨-, hless⟩ : 0 < s.length ∧ s.length < t.length := h
      refine iff_of_false ?_ (by decide)
      rintro rfl
      exact Nat.lt_irrefl _ hless

theorem Grown.endLine (h : Grown more s t) : Grown more (endLine s) (endLine t) := by
  cases more with
  | false =>
      obtain rfl : t = s := h
      rfl
  | true =>
      obtain ⟨hsome, hless⟩ : 0 < s.length ∧ s.length < t.length := h
      unfold Html.endLine
      rw [isEmpty_of_length_pos hsome, isEmpty_of_length_pos (Nat.lt_trans hsome hless)]
      simp only [Grown, String.length_append, Bool.false_eq_true, if_false]
      omega

theorem Grown.pageHtml (h : Grown more s t) (o : Options) (m : Metadata) (notes : String) :
    Grown more (pageHtml o m s notes) (pageHtml o m t notes) := by
  have hinner := h.endLine.between "" (Html.endLine notes)
  rw [String.empty_append, String.empty_append] at hinner
  unfold Html.pageHtml
  dsimp only
  split
  · exact hinner.between _ _
  · exact hinner

/-- Blocks that are written with the same notes have as many of them. -/
theorem Tracks.blocksNotes_eq {R : List String → List String → Prop} {bs bs' : List Block}
    (h : Tracks R (blockParts bs) (blockParts bs')) {w w' : Writer} {ps : List String}
    (hps : blockParts bs w = .ok (ps, w')) : blocksNotes bs' = blocksNotes bs := by
  rcases h w with ⟨e, he, -⟩ | ⟨_, qs, _, hps', hqs, -⟩
  · rw [hps] at he
    cases he
  · rw [hps] at hps'
    cases hps'
    obtain ⟨new, hnew, hsize, -⟩ := blockParts_refers bs hps
    obtain ⟨new', hnew', hsize', -⟩ := blockParts_refers bs' hqs
    obtain rfl : new = new' := List.append_cancel_left (hnew.symm.trans hnew')
    rw [← hsize, ← hsize']

/-- A document is its blocks, and then its notes. -/
theorem render_eq (o : Options) (d : Document) : render o d = (blockParts d.content {} >>= fun r =>
    notesHtml (blocksNotes d.content) r.2 >>= fun q =>
      .ok (pageHtml o d.metadata (joinLines r.1) q.1)) := by
  unfold render bodyHtml
  change ((blockParts d.content {} >>= fun r => notesHtml (blocksNotes d.content) r.2 >>= fun q =>
    .ok ((joinLines r.1, q.1), q.2)) >>= fun r => .ok (pageHtml o d.metadata r.1.1 r.1.2)) = _
  rw [bind_assoc]
  refine bind_congr fun r => ?_
  rw [bind_assoc]
  rfl

/-- Documents whose blocks are written side by side are the same text, or the second is longer. -/
theorem render_tracks {bs bs' : List Block}
    (h : Tracks (BlocksGrown more) (blockParts bs) (blockParts bs')) {o : Options} {m : Metadata}
    {html : String} (hrender : render o ⟨m, bs⟩ = .ok html) :
    ∃ html', render o ⟨m, bs'⟩ = .ok html' ∧ Grown more html html' := by
  rw [render_eq] at hrender ⊢
  rcases h {} with ⟨e, he, -⟩ | ⟨ps, qs, w, hps, hqs, hgrown⟩
  · rw [he] at hrender
    cases hrender
  · rw [hps] at hrender
    rw [hqs]
    change (notesHtml (blocksNotes bs) w >>= fun q => _) = _ at hrender
    change ∃ html', (notesHtml (blocksNotes bs') w >>= fun q => _) = _ ∧ _
    rw [h.blocksNotes_eq hps]
    cases hnotes : notesHtml (blocksNotes bs) w with
    | error e =>
        rw [hnotes] at hrender
        cases hrender
    | ok notes =>
        rw [hnotes] at hrender
        cases hrender
        exact ⟨_, rfl, hgrown.joinLines.pageHtml o m notes.1⟩

end documents

end Markup.Html
