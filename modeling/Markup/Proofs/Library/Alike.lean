import Markup.Proofs.Call.Wording
import Markup.Proofs.Doc.Telling
import Markup.Proofs.Library.Uniform

/-! # Pieces of the same words are evaluated alike

Where a piece stands matters for what a failure says and for nothing else.  `Repeats` says of two
steps that the second one does whatever the first one does, if that returns: it returns the same,
and leaves the same builder behind.  Pieces of the same words, at whatever places of two sources,
are run by steps that do (`run_repeats`). -/

namespace Markup

/-- What the first step returns and makes of a builder, the second one does too. -/
def Repeats {α : Type} (x y : Eval α) : Prop :=
  ∀ s a s', x s = (.ok a, s') → ∀ log, ∃ last, y ⟨s.builder, log⟩ = (.ok a, ⟨s'.builder, last⟩)

namespace Repeats

variable {α β : Type}

theorem pure (a : α) : Repeats (Pure.pure a) (Pure.pure a) := by
  rintro s _ _ ⟨⟩ log
  exact ⟨log, rfl⟩

/-- A step that fails has nothing to be repeated. -/
theorem throw (f : Failure) (y : Eval α) : Repeats (MonadExcept.throw f) y := by
  rintro s a s' ⟨⟩

theorem bind {x y : Eval α} {f g : α → Eval β} (h : Repeats x y)
    (hnext : ∀ a, Repeats (f a) (g a)) : Repeats (x >>= f) (y >>= g) := by
  intro s b s'' hrun log
  obtain ⟨a, s', hx, hf⟩ := exists_of_bind_eq_ok hrun
  obtain ⟨last, hy⟩ := h s a s' hx log
  obtain ⟨last', hg⟩ := hnext a s' b s'' hf last
  refine ⟨last', ?_⟩
  rw [bind_run, hy]
  exact hg

theorem adapt {x y : Eval α} (h : Repeats x y) (f g : Failure → Failure) :
    Repeats (ExceptT.adapt f x) (ExceptT.adapt g y) := by
  intro s a s' hrun log
  rw [adapt_run] at hrun
  rcases hx : x s with ⟨e | a', after⟩
  · rw [hx] at hrun
    cases hrun
  · rw [hx] at hrun
    cases hrun
    obtain ⟨last, hy⟩ := h s a s' hx log
    exact ⟨last, by rw [adapt_run, hy]⟩

theorem nested {x y : Eval α} (h : Repeats x y) : Repeats (Eval.nested x) (Eval.nested y) := by
  intro s a s' hrun log
  rw [nested_run] at hrun
  obtain ⟨hx, rfl⟩ := Prod.mk.inj hrun
  obtain ⟨last, hy⟩ := h ⟨{}, s.log⟩ a _ (Prod.ext hx rfl) log
  exact ⟨last, by rw [nested_run, hy]⟩

theorem ofBuild {step : Build α} (h : step.Quiet) :
    Repeats (Eval.ofBuild step) (Eval.ofBuild step) := by
  rintro ⟨b, before⟩ a s' hrun log
  rw [Eval.ofBuild, adapt_run] at hrun
  rcases hstep : step ⟨b, before⟩ with ⟨e | a', after⟩
  · rw [hstep] at hrun
    cases hrun
  · rw [hstep] at hrun
    cases hrun
    obtain ⟨last, hrun'⟩ := h.run_of_ok hstep log
    exact ⟨last, by rw [Eval.ofBuild, adapt_run, hrun']⟩

end Repeats

/-! ### The text of pieces -/

theorem literalText_of_wording : ∀ {ps qs : List Piece},
    List.Forall₂ (fun p q => p.wording = q.wording) ps qs → ∀ {text : String},
      literalText ps = .ok text → literalText qs = .ok text
  | _, _, .nil, _, h => h
  | .text span :: ps, .text span' :: qs, .cons hpq hrest, text, h => by
      obtain hspan : span.fragment = span'.fragment := Wording.text.inj hpq
      rw [literalText] at h ⊢
      cases htext : literalText ps with
      | error e =>
          rw [htext] at h
          cases h
      | ok more =>
          rw [htext] at h
          rw [literalText_of_wording hrest htext, ← hspan]
          exact h
  | .text _ :: _, .call _ :: _, .cons hpq _, _, _ => by cases hpq
  | .call _ :: _, _, .cons _ _, _, h => by cases h

theorem string_repeats {ps qs : List Piece}
    (h : List.Forall₂ (fun p q => p.wording = q.wording) ps qs) :
    Repeats (Deferred.ofPieces ps).string (Deferred.ofPieces qs).string := by
  have hinto : ∀ pieces, (Deferred.ofPieces pieces).intoString.1 = literalText pieces :=
    fun pieces => rfl
  unfold Deferred.string
  rw [hinto, hinto]
  cases htext : literalText ps with
  | error e => exact .throw _ _
  | ok text =>
      rw [literalText_of_wording h htext]
      exact .pure text

/-- Pieces of the same words, and steps of which the second repeats the first. -/
def sameWords : Comparison where
  Pieces := List.Forall₂ fun p q => p.wording = q.wording
  Inner := Repeats
  Steps := Repeats
  pure := .pure
  bind := .bind
  fail _ := .throw _ _
  pushInline _ := .ofBuild (Build.quiet_push _)
  pushBlock _ := .ofBuild (Build.quiet_push _)
  setMetadata _ _ := .ofBuild (Build.quiet_change _)
  string := string_repeats
  intoBlocks h := .nested (h.bind fun _ => .ofBuild Build.quiet_intoBlocks)
  intoInlines h := .nested (h.bind fun _ => .ofBuild Build.quiet_intoInlines)

/-! ### Calls -/

theorem forall₂_of_map_eq {α β : Type} {f : α → β} : ∀ {as bs : List α},
    as.map f = bs.map f → List.Forall₂ (fun a b => f a = f b) as bs
  | [], [], _ => .nil
  | _ :: _, _ :: _, h => .cons (List.cons.inj h).1 (forall₂_of_map_eq (List.cons.inj h).2)

/-- Arguments that say the same are read to pieces that do. -/
theorem readsAlike_of_wording {mode : ArgMode} {source source' : Source} {as bs : List Argument}
    (h : as.map Argument.wording = bs.map Argument.wording) :
    List.Forall₂ (sameWords.ReadsAlike mode source source') as bs := by
  refine (forall₂_of_map_eq h).imp fun a b hab => ?_
  obtain ⟨hname, hvalue⟩ := Prod.mk.inj hab
  refine ⟨hname, fun ps hread => ?_⟩
  obtain ⟨qs, hread', hwords⟩ := ArgMode.read_of_fragment_eq hread hvalue
  exact ⟨qs, hread', forall₂_of_map_eq hwords⟩

theorem runPieces_repeats {call call' : Call → Eval Unit}
    (h : ∀ c c', (Piece.call c).wording = (Piece.call c').wording → Repeats (call c) (call' c')) :
    ∀ {ps qs : List Piece}, List.Forall₂ (fun p q => p.wording = q.wording) ps qs →
      Repeats (runPieces call ps) (runPieces call' qs)
  | _, _, .nil => .pure ()
  | .text span :: _, .text span' :: _, .cons hpq hrest => by
      have hpush : Repeats (Eval.push (.span span)) (Eval.push (.span span')) := by
        have hspan : Build.push (.span span) = Build.push (.span span') := by
          rw [Build.push, Build.push, Wording.text.inj hpq]
        unfold Eval.push
        rw [← hspan]
        exact .ofBuild (Build.quiet_push _)
      exact hpush.bind fun _ => runPieces_repeats h hrest
  | .call c :: _, .call c' :: _, .cons hpq hrest =>
      (h c c' hpq).bind fun _ => runPieces_repeats h hrest
  | .text _ :: _, .call _ :: _, .cons hpq _ => by cases hpq
  | .call _ :: _, .text _ :: _, .cons hpq _ => by cases hpq

theorem callBody_repeats {w w' : World Builtin} {c c' : Call} (hscope : w.scope = w'.scope)
    (hwords : (Piece.call c).wording = (Piece.call c').wording)
    {call call' : Invocation Builtin → Call → Eval Unit}
    (h : ∀ i i' c c', i.locals = i'.locals → (Piece.call c).wording = (Piece.call c').wording →
      Repeats (call i c) (call' i' c')) :
    Repeats (w.callBody Builtin.library c call) (w'.callBody Builtin.library c' call') := by
  intro s a s' hrun log
  obtain ⟨hname, hargs⟩ := Wording.call.inj hwords
  rw [World.callBody_run] at hrun
  cases hfound : w.found Builtin.library c with
  | error e =>
      rw [hfound] at hrun
      cases hrun
  | ok found =>
      obtain ⟨d, i⟩ := found
      rw [hfound] at hrun
      obtain ⟨i', hfound', hlocals, hbody⟩ := sameWords.found_invocations hscope hname
        (fun mode => readsAlike_of_wording hargs) hfound
      have hrunners : sameWords.Runners (runPieces (call i)) (runPieces (call' i')) := by
        intro ps qs hpieces
        exact runPieces_repeats (fun c c' hc => h i i' c c' hlocals hc) hpieces
      have hrepeats : Repeats _ _ := hbody _ _ hrunners
      rw [World.callBody_run, hfound']
      exact (hrepeats.adapt (w.settle c) (w'.settle c')) _ a s' hrun _

theorem callWithin_repeats : ∀ (levels : Nat) {w w' : World Builtin} {c c' : Call},
    w.scope = w'.scope → (Piece.call c).wording = (Piece.call c').wording →
      Repeats (w.callWithin {} Builtin.library levels c)
        (w'.callWithin {} Builtin.library levels c')
  | 0, _, _, _, _, _, _ => .throw _ _
  | levels + 1, w, w', c, c', hscope, hwords => by
      rw [World.callWithin_succ, World.callWithin_succ]
      refine callBody_repeats hscope hwords fun i i' c c' hlocals hc => ?_
      refine callWithin_repeats levels ?_ hc
      simp only [World.inner, hscope, hlocals]

/-- **Pieces of the same words are evaluated alike.** -/
theorem run_repeats (w w' : World Builtin) (hscope : w.scope = w'.scope)
    (hdepth : w.depth = w'.depth) (hmax : w.maxDepth = w'.maxDepth) {ps qs : List Piece}
    (h : ps.map Piece.wording = qs.map Piece.wording) :
    Repeats (w.run {} Builtin.library ps) (w'.run {} Builtin.library qs) := by
  refine runPieces_repeats (fun c c' hc => ?_) (forall₂_of_map_eq h)
  unfold World.call
  rw [hmax, hdepth]
  exact callWithin_repeats _ hscope hc

end Markup
