import Markup.Proofs.Html.Blind

/-! # Written the same but for one place

`OneOff` are lists that differ in one place, `Differ` texts that are the same or not, as a flag
says; tags around texts and other texts beside them make no difference to that.

`Alters` compares two steps of the writer.  Where the first succeeds so does the second, and either
the results are related, or they are the same and the queued notes are but for one, which is related
to the one in its place.  What comes first or last is the same for both, since the writer does not
look back. -/

namespace Markup.Html

/-! ### Lists that differ in one place -/

/-- The same list but for one place, where the two are related. -/
inductive OneOff {α : Type} (R : α → α → Prop) : List α → List α → Prop
  | head {a a' : α} {rest : List α} (h : R a a') : OneOff R (a :: rest) (a' :: rest)
  | tail {a : α} {rest rest' : List α} (h : OneOff R rest rest') : OneOff R (a :: rest) (a :: rest')

namespace OneOff

variable {α : Type} {R : α → α → Prop} {xs ys : List α}

theorem length_eq (h : OneOff R xs ys) : ys.length = xs.length := by
  induction h with
  | head _ => rfl
  | tail _ ih => rw [List.length_cons, List.length_cons, ih]

theorem ne_nil (h : OneOff R xs ys) : xs ≠ [] ∧ ys ≠ [] := by
  cases h <;> exact ⟨List.cons_ne_nil _ _, List.cons_ne_nil _ _⟩

theorem append_left (h : OneOff R xs ys) (before : List α) :
    OneOff R (before ++ xs) (before ++ ys) := by
  induction before with
  | nil => exact h
  | cons a before ih => exact .tail ih

theorem append_right (h : OneOff R xs ys) (after : List α) :
    OneOff R (xs ++ after) (ys ++ after) := by
  induction h with
  | head hR => exact .head hR
  | tail _ ih => exact .tail ih

end OneOff

/-! ### Texts that are the same or not -/

/-- The two are the same, or they are not, as the flag says. -/
def Differ {α : Type} (more : Bool) (a b : α) : Prop := b ≠ a ↔ more = true

section differ

variable {α β : Type} {more : Bool}

theorem Differ.refl (h : more = false) (a : α) : Differ more a a := by
  rw [h]
  exact iff_of_false (fun hne => hne rfl) (by decide)

theorem Differ.map {f : α → β} (hf : Function.Injective f) {a b : α} (h : Differ more a b) :
    Differ more (f a) (f b) := (hf.ne_iff).trans h

theorem Differ.append_left {s t : String} (h : Differ more s t) (before : String) :
    Differ more (before ++ s) (before ++ t) :=
  h.map (f := (before ++ ·)) fun _ _ heq => by simpa using heq

theorem Differ.append_right {s t : String} (h : Differ more s t) (after : String) :
    Differ more (s ++ after) (t ++ after) :=
  h.map (f := (· ++ after)) fun _ _ heq => by simpa using heq

theorem Differ.between {s t : String} (h : Differ more s t) (before after : String) :
    Differ more (before ++ s ++ after) (before ++ t ++ after) :=
  (h.append_left before).append_right after

/-- Parts on lines of their own differ where one of them does. -/
theorem OneOff.joinLines {ps qs : List String} (h : OneOff (Differ more) ps qs) :
    Differ more (joinLines ps) (joinLines qs) := by
  unfold Html.joinLines
  induction h with
  | @head a a' rest hdiffer =>
      cases rest with
      | nil =>
          rw [String.intercalate_singleton, String.intercalate_singleton]
          exact hdiffer
      | cons p rest =>
          rw [String.intercalate_cons_cons, String.intercalate_cons_cons]
          exact (hdiffer.append_right _).append_right _
  | @tail a rest rest' hrest ih =>
      obtain ⟨p, more, rfl⟩ : ∃ p more, rest = p :: more := by cases hrest <;> exact ⟨_, _, rfl⟩
      obtain ⟨q, more', rfl⟩ : ∃ q more, rest' = q :: more := by cases hrest <;> exact ⟨_, _, rfl⟩
      rw [String.intercalate_cons_cons, String.intercalate_cons_cons]
      exact ih.append_left _

/-- Texts that are the same or not, none of them empty. -/
structure Kept (more : Bool) (s t : String) : Prop where
  differ : Differ more s t
  left : s.isEmpty = false
  right : t.isEmpty = false

theorem isEmpty_append_right (s : String) {t : String} (ht : t.isEmpty = false) :
    (s ++ t).isEmpty = false := by
  rw [Bool.eq_false_iff] at ht ⊢
  intro hempty
  have hboth := String.append_eq_empty_iff.mp (String.isEmpty_iff.mp hempty)
  exact ht (String.isEmpty_iff.mpr hboth.2)

theorem Differ.kept {s t after : String} (h : Differ more s t) (hafter : after.isEmpty = false) :
    Kept more (s ++ after) (t ++ after) :=
  ⟨h.append_right after, isEmpty_append_right s hafter, isEmpty_append_right t hafter⟩

/-- Parts on the lines between a first and a last one. -/
theorem OneOff.kept {ps qs : List String} (h : OneOff (Differ more) ps qs) (first : String)
    {last : String} (hlast : last.isEmpty = false) :
    Kept more (Html.joinLines ([first] ++ ps ++ [last]))
      (Html.joinLines ([first] ++ qs ++ [last])) := by
  refine ⟨((h.append_left [first]).append_right [last]).joinLines, ?_, ?_⟩
  · rw [joinLines_between]
    exact isEmpty_append_right _ hlast
  · rw [joinLines_between]
    exact isEmpty_append_right _ hlast

end differ

/-! ### Steps that do the same but for one note -/

/-- If the first step succeeds, so does the second one, for a writer that is level with the first.
Either the results are related and the same notes are queued, or the results are the same and the
queued notes are but for one, where `N` relates the two. -/
def Alters {α : Type} (N : List Block → List Block → Prop) (R : α → α → Prop) (x y : Render α) :
    Prop :=
  ∀ ⦃w : Writer⦄ ⦃a : α⦄ ⦃w' : Writer⦄, x w = .ok (a, w') → ∃ b new new',
    w'.notes = w.notes ++ new ∧ (R a b ∧ new' = new ∨ b = a ∧ OneOff N new new') ∧
      ∀ v, Level w v → y v = .ok (b, ⟨v.notes ++ new', w'.slugs⟩)

namespace Alters

variable {α β γ : Type} {N : List Block → List Block → Prop} {R : α → α → Prop} {S : β → β → Prop}
  {x y : Render α}

/-- Steps that leave the same writer behind. -/
theorem of_tracks (h : Tracks R x y) (hx : Blind x) (hy : Blind y) : Alters N R x y := by
  intro w a w' hrun
  obtain ⟨new, hnotes, -⟩ := hx hrun
  rcases h w with ⟨e, he, -⟩ | ⟨a', b, w₁, ha, hb, hR⟩
  · rw [hrun] at he
    cases he
  · rw [hrun] at ha
    cases ha
    obtain ⟨new', hnotes', hsame⟩ := hy hb
    exact ⟨b, new, new', hnotes, .inl ⟨hR, List.append_cancel_left (hnotes'.symm.trans hnotes)⟩,
      hsame⟩

theorem throw (e : RenderError) {next : α → Render β} {y : Render β} :
    Alters N S (MonadExcept.throw e >>= next) y := by
  rintro w a w' ⟨⟩

theorem map {f : α → β} (h : Alters N R x y) (hf : ∀ a b, R a b → S (f a) (f b)) :
    Alters N S (x >>= fun a => Pure.pure (f a)) (y >>= fun a => Pure.pure (f a)) := by
  intro w c w' hrun
  obtain ⟨a, w₁, hx, hpure⟩ := exists_of_bind hrun
  cases hpure
  obtain ⟨b, new, new', hnotes, hor, hy⟩ := h hx
  refine ⟨f b, new, new', hnotes, ?_, fun v hv => ?_⟩
  · exact hor.imp (And.imp_left (hf a b)) (And.imp_left (congrArg f))
  · change (y v >>= fun r => Except.ok (f r.1, r.2)) = _
    rw [hy v hv]
    rfl

/-- The same step comes first. -/
theorem behind {z : Render β} {f g : β → Render α} (hz : Blind z)
    (h : ∀ b, Alters N R (f b) (g b)) : Alters N R (z >>= f) (z >>= g) := by
  intro w a w' hrun
  obtain ⟨b, w₁, hzrun, hf⟩ := exists_of_bind hrun
  obtain ⟨first, hfirst, hsame⟩ := hz hzrun
  obtain ⟨a', new, new', hnotes, hor, hg⟩ := h b hf
  refine ⟨a', first ++ new, first ++ new', by rw [hnotes, hfirst, List.append_assoc], ?_,
    fun v hv => ?_⟩
  · exact hor.imp (And.imp_right (congrArg _)) (And.imp_right fun hoff => hoff.append_left first)
  · change (z v >>= fun r => g r.1 r.2) = _
    rw [hsame v hv, ← List.append_assoc]
    exact hg _ (hv.append hfirst rfl)

theorem length_eq {a b : α} {new new' : List (List Block)}
    (hor : R a b ∧ new' = new ∨ b = a ∧ OneOff N new new') : new'.length = new.length := by
  rcases hor with ⟨-, rfl⟩ | ⟨-, hoff⟩
  · rfl
  · exact hoff.length_eq

/-- The same step comes last. -/
theorem before {z : Render γ} {f : α → γ → β} (h : Alters N R x y) (hz : Blind z)
    (hf : ∀ a b c, R a b → S (f a c) (f b c)) :
    Alters N S (x >>= fun a => z >>= fun c => Pure.pure (f a c))
      (y >>= fun a => z >>= fun c => Pure.pure (f a c)) := by
  intro w r w' hrun
  obtain ⟨a, w₁, hx, hrest⟩ := exists_of_bind hrun
  obtain ⟨c, w₂, hzrun, hpure⟩ := exists_of_bind hrest
  cases hpure
  obtain ⟨b, new, new', hnotes, hor, hy⟩ := h hx
  obtain ⟨last, hlast, hsame⟩ := hz hzrun
  refine ⟨f b c, new ++ last, new' ++ last, by rw [hlast, hnotes, List.append_assoc], ?_,
    fun v hv => ?_⟩
  · exact hor.imp (And.imp (hf a b c) (congrArg (· ++ last)))
      (And.imp (congrArg (f · c)) fun hoff => hoff.append_right last)
  · change (y v >>= fun r => z r.2 >>= fun q => Except.ok (f r.1 q.1, q.2)) = _
    rw [hy v hv]
    change (z ⟨v.notes ++ new', w₁.slugs⟩ >>= fun q => Except.ok (f b q.1, q.2)) = _
    rw [hsame _ (hv.append hnotes (length_eq hor)), ← List.append_assoc]
    rfl

/-- After a step whose result is the same, so is all else. -/
theorem inert {next : α → Render β} (h : Alters N (fun _ _ => False) x y)
    (hnext : ∀ a, Blind (next a)) : Alters N S (x >>= next) (y >>= next) := by
  intro w r w' hrun
  obtain ⟨a, w₁, hx, hrest⟩ := exists_of_bind hrun
  obtain ⟨b, new, new', hnotes, hor, hy⟩ := h hx
  obtain ⟨rfl, hoff⟩ : b = a ∧ OneOff N new new' := hor.resolve_left fun hfalse => hfalse.1
  obtain ⟨last, hlast, hsame⟩ := hnext b hrest
  refine ⟨r, new ++ last, new' ++ last, by rw [hlast, hnotes, List.append_assoc],
    .inr ⟨rfl, hoff.append_right last⟩, fun v hv => ?_⟩
  change (y v >>= fun q => next q.1 q.2) = _
  rw [hy v hv, ← List.append_assoc]
  exact hsame _ (hv.append hnotes hoff.length_eq)

end Alters

end Markup.Html
