import Markup.Proofs.Call.Spans
import Markup.Proofs.Doc.Drain
import Markup.Proofs.Doc.Ink
import Markup.Proofs.Eval.Invocation

/-! # What evaluation adds, and how it fails

`Yields failed step result` is the contract of a step of evaluation: on any builder of standard
blocks it either fails in a way that `failed` allows, or it returns, leaves a builder of standard
blocks, and has added some ink at the end of what the builder held; `result` relates the value it
returned and the ink it added.  Contracts of steps in turn concatenate their ink
(`Yields.bind`).

There are two ways to fail.  Inside a call a failure may lack its place, or part of it
(`Failure.Placeable`); the call then fills in what is missing, so that a failure which leaves a
call has a place in the text (`Failure.Placed`, `Failure.Placeable.settle`). -/

namespace Markup

/-! ### Failures -/

/-- What is known of a failure inside a call: it is a failure of a command or of the builder, no
argument was used twice, and as far as it has a place, that is in the text; or the stack has run
out, or the limit of the run is a number that is not printed. -/
def Failure.Placeable (text : String) (unprinted : Prop) : Failure → Prop
  | .command e => (∀ message, e.cause ≠ .spent message) ∧
      (∀ span, e.span = some span → span.InText text.toList) ∧
      ∀ source, e.source = some source → source = text
  | .build _ | .overflow .stack => True
  | .overflow .digits => unprinted
  | .unpushable _ => False

/-- What is known of an error of a command that leaves a call: no argument was used twice, and
it has a place in the text. -/
def CommandError.Placed (text : String) (e : CommandError) : Prop :=
  (∀ message, e.cause ≠ .spent message) ∧
    (∃ span, e.span = some span ∧ span.InText text.toList) ∧ e.source = some text

/-- What is known of a failure that leaves a call: it is an error of a command, in its place, or
there was no room for the call or for an error that tells the limit. -/
def Failure.Placed (text : String) (unprinted : Prop) : Failure → Prop
  | .command e => e.Placed text
  | .overflow .stack => True
  | .overflow .digits => unprinted
  | .build _ | .unpushable _ => False

theorem Failure.Placed.placeable {text : String} {unprinted : Prop} : ∀ {f : Failure},
    f.Placed text unprinted → f.Placeable text unprinted
  | .overflow .stack, h => h
  | .overflow .digits, h => h
  | .command e, ⟨hcause, ⟨span, hspan, hin⟩, hsource⟩ => by
      refine ⟨hcause, ?_, ?_⟩
      · intro found hfound
        rw [hspan] at hfound
        cases hfound
        exact hin
      · intro found hfound
        rw [hsource] at hfound
        cases hfound
        rfl

/-- A call gives every failure inside it a place. -/
theorem Failure.Placeable.settle {κ : Type} {w : World κ} {c : Call} {unprinted : Prop}
    (hname : c.name.InText w.source.text.toList) : ∀ {f : Failure},
    f.Placeable w.source.text unprinted → (w.settle c f).Placed w.source.text unprinted
  | .overflow .digits, h => h
  | .overflow .stack, _ => ⟨fun _ h => CommandCause.noConfusion h, ⟨c.name, rfl, hname⟩, rfl⟩
  | .build _, _ => ⟨fun _ h => CommandCause.noConfusion h, ⟨c.name, rfl, hname⟩, rfl⟩
  | .command ⟨cause, span, source⟩, ⟨hcause, hspan, hsource⟩ => by
      refine ⟨hcause, ?_, ?_⟩
      · cases span with
        | none => exact ⟨c.name, rfl, hname⟩
        | some span => exact ⟨span, rfl, hspan span rfl⟩
      · cases source with
        | none => rfl
        | some source => exact congrArg some (hsource source rfl)

/-! ### Contracts -/

/-- On a builder of standard blocks the step fails as `failed` allows, or leaves such a builder
with ink added at its end, which `result` relates to the value returned. -/
def Yields {α : Type} (failed : Failure → Prop) (step : Eval α) (result : α → List Char → Prop) :
    Prop :=
  ∀ s : Session, s.builder.MadeOf Standard → Ensures step s
    (fun a s' => s'.builder.MadeOf Standard ∧ ∃ added,
      leavesInk s'.builder.leaves = leavesInk s.builder.leaves ++ added ∧ result a added)
    failed

section contracts

variable {α β : Type} {failed : Failure → Prop} {step : Eval α} {result : α → List Char → Prop}

theorem Yields.pure {a : α} (h : result a []) : Yields failed (Pure.pure a) result :=
  fun _ hs => .pure ⟨hs, [], (List.append_nil _).symm, h⟩

theorem Yields.throw {f : Failure} (h : failed f) :
    Yields failed (MonadExcept.throw f : Eval α) result := fun _ _ => .throw h

theorem Yields.mono {failed' : Failure → Prop} {result' : α → List Char → Prop}
    (h : Yields failed step result) (hresult : ∀ a added, result a added → result' a added)
    (hfailed : ∀ f, failed f → failed' f) : Yields failed' step result' := by
  intro s hs
  refine (h s hs).mono (fun a s' => ?_) hfailed
  rintro ⟨hs', added, hink, ha⟩
  exact ⟨hs', added, hink, hresult a added ha⟩

theorem Yields.bind {next : α → Eval β} {result' : β → List Char → Prop}
    (h : Yields failed step result)
    (hnext : ∀ a added, result a added →
      Yields failed (next a) fun b more => result' b (added ++ more)) :
    Yields failed (step >>= next) result' := by
  intro s hs
  refine .bind ((h s hs).mono (fun a s' => ?_) fun _ hf => hf)
  rintro ⟨hs', added, hink, ha⟩
  refine (hnext a added ha s' hs').mono (fun b s'' => ?_) fun _ hf => hf
  rintro ⟨hs'', more, hmore, hb⟩
  exact ⟨hs'', added ++ more, by rw [hmore, hink, List.append_assoc], hb⟩

theorem Yields.adapt {f : Failure → Failure} {failed' : Failure → Prop}
    (h : Yields failed step result) (hfailed : ∀ e, failed e → failed' (f e)) :
    Yields failed' (ExceptT.adapt f step) result := fun s hs => (h s hs).adapt hfailed

theorem Yields.ite {step' : Eval α} (h : Yields failed step result) (p : Prop) [Decidable p]
    (h' : Yields failed step' result) : Yields failed (if p then step else step') result := by
  split
  · exact h
  · exact h'

end contracts

/-! ### Steps -/

section steps

variable {failed : Failure → Prop}

theorem tell_yields (e : LogEntry) : Yields failed (Eval.tell e) fun _ added => added = [] :=
  fun _ hs => .modify ⟨hs, [], (List.append_nil _).symm, rfl⟩

theorem change_yields {f : Builder → Builder} {ink : List Char}
    (hmade : ∀ b : Builder, b.MadeOf Standard → (f b).MadeOf Standard)
    (hink : ∀ b : Builder, leavesInk (f b).leaves = leavesInk b.leaves ++ ink) :
    Yields failed (Eval.ofBuild (Build.change f)) fun _ added => added = ink := by
  intro s hs
  have hchange : Ensures (Build.change f) s (fun _ s' => s'.builder.MadeOf Standard ∧ ∃ added,
      leavesInk s'.builder.leaves = leavesInk s.builder.leaves ++ added ∧ added = ink)
      fun _ => False := .modify ⟨hmade _ hs, ink, hink _, rfl⟩
  exact hchange.adapt fun _ hf => hf.elim

theorem pushInline_yields {i : Inline} (h : i.MadeOf Standard) :
    Yields failed (Eval.pushInline i) fun _ added => added = leavesInk i.leaves := by
  rw [Eval.pushInline, Eval.push, Build.push]
  refine change_yields (fun b hb => ?_) (fun b => ?_)
  · exact ⟨hb.1, inlinesMadeOf_append.mpr ⟨hb.2, h, trivial⟩⟩
  · simp [Builder.leaves, inlinesLeaves]

theorem setMetadata_yields (key value : String) :
    Yields failed (Eval.ofBuild (Build.setMetadata key value)) fun _ added => added = [] :=
  change_yields (fun _ hb => hb) fun _ => (List.append_nil _).symm

/-- Draining the builder of an evaluation. -/
theorem drain_ensures_standard {s : Session} (h : s.builder.MadeOf Standard) :
    Ensures Build.drain s
      (fun _ s' => s'.builder.MadeOf Standard ∧ s'.builder.pending = [] ∧
        s'.builder.leaves = s.builder.leaves)
      (· = .build .emptyTermList) := drain_ensures_leaves trivial id h

theorem pushBlock_yields {b : Block} (hbuild : ∀ e, failed (.build e)) (h : b.MadeOf Standard) :
    Yields failed (Eval.pushBlock b) fun _ added => added = leavesInk b.leaves := by
  intro s hs
  have hpush : Ensures (Build.pushBlock b) s (fun _ s' => s'.builder.MadeOf Standard ∧ ∃ added,
      leavesInk s'.builder.leaves = leavesInk s.builder.leaves ++ added ∧
        added = leavesInk b.leaves) (· = .build .emptyTermList) := by
    refine .bind ((drain_ensures_standard hs).mono (fun _ s' => ?_) fun _ he => he)
    rintro ⟨hmade, hpending, hleaves⟩
    refine .modify ⟨⟨blocksMadeOf_append.mpr ⟨hmade.1, h, trivial⟩, hmade.2⟩, _, ?_, rfl⟩
    rw [← hleaves]
    simp [Builder.leaves, hpending, blocksLeaves, inlinesLeaves]
  refine hpush.adapt ?_
  rintro _ rfl
  exact hbuild _

end steps

/-! ### Content of its own -/

theorem intoBlocks_ensures {s : Session} (h : s.builder.MadeOf Standard) :
    Ensures Build.intoBlocks s
      (fun blocks _ => blocksMadeOf Standard blocks ∧
        leavesInk (blocksLeaves blocks) = leavesInk s.builder.leaves)
      (· = .build .emptyTermList) := by
  refine .bind ((drain_ensures_standard h).mono (fun _ s' => ?_) fun _ he => he)
  rintro ⟨hmade, hpending, hleaves⟩
  refine .bind (.get (.pure ⟨hmade.1, ?_⟩))
  rw [← hleaves]
  simp [Builder.leaves, hpending, inlinesLeaves]

theorem intoDocument_ensures {s : Session} (h : s.builder.MadeOf Standard) :
    Ensures Build.intoDocument s
      (fun d _ => blocksMadeOf Standard d.content ∧
        leavesInk (blocksLeaves d.content) = leavesInk s.builder.leaves)
      (· = .build .emptyTermList) :=
  .bind ((intoBlocks_ensures h).mono (fun _ _ hblocks => .bind (.get (.pure hblocks)))
    fun _ he => he)

theorem intoInlines_ensures {s : Session} (h : s.builder.MadeOf Standard) :
    Ensures Build.intoInlines s
      (fun run _ => inlinesMadeOf Standard run ∧
        leavesInk (inlinesLeaves run) = leavesInk s.builder.leaves)
      (fun f => ∃ e, f = .build e) := by
  refine .bind ((intoBlocks_ensures h).mono (fun blocks s' => ?_) fun f hf => ⟨_, hf⟩)
  rintro ⟨hmade, hink⟩
  rw [← hink]
  split
  · exact .pure ⟨trivial, rfl⟩
  · exact .pure ⟨hmade.1.2, by simp [blocksLeaves, Block.leaves]⟩
  · exact .pure ⟨hmade.1.2, by simp [blocksLeaves, Block.leaves]⟩
  · exact .throw ⟨_, rfl⟩

/-- What is taken out of a builder of its own has the ink that was put in. -/
theorem nested_yields {α : Type} {failed : Failure → Prop} {step : Eval Unit} {take : Build α}
    {result : List Char → Prop} {madeOf : α → Prop} {leaves : α → List Leaf}
    (hbuild : ∀ e, failed (.build e))
    (htake : ∀ s : Session, s.builder.MadeOf Standard → Ensures take s
      (fun a _ => madeOf a ∧ leavesInk (leaves a) = leavesInk s.builder.leaves)
      fun f => ∃ e, f = .build e)
    (h : Yields failed step fun _ added => result added) :
    Yields failed (Eval.nested do step; Eval.ofBuild take) fun a added =>
      added = [] ∧ madeOf a ∧ result (leavesInk (leaves a)) := by
  intro s hs
  have hempty : Builder.MadeOf Standard {} := ⟨trivial, trivial⟩
  refine .nested (.bind ((h { s with builder := {} } hempty).mono (fun _ s' => ?_) fun _ hf => hf))
  rintro ⟨hmade, added, hink, hresult⟩
  have hfailed : ∀ f : BuildFailure, (∃ e, f = .build e) → failed (.ofBuild f) := by
    rintro _ ⟨e, rfl⟩
    exact hbuild e
  refine ((htake s' hmade).adapt hfailed).mono (fun a _ => ?_) fun _ hf => hf
  rintro ⟨hmadeOf, ha⟩
  have hadded : leavesInk (leaves a) = added := ha.trans hink
  exact ⟨hs, [], (List.append_nil _).symm, rfl, hmadeOf, hadded ▸ hresult⟩

end Markup
