import Markup.Proofs.Doc.Behind
import Markup.Proofs.Library.Uniform

/-! # A command adds one thing

What a standard command evaluates, it evaluates on builders of its own, so that up to its last step
it neither looks at the builder it is called with nor changes it (`Eval.Silent`).  With its last
step it pushes inline content, or pushes a block, or it pushes nothing and only sets metadata
(`Eval.AddsOne`).  This is so for every call, whatever its depth (`callWithin_addsOne`). -/

namespace Markup

namespace Eval

/-! ### Steps that leave the builder alone -/

/-- The step does the same whatever the builder holds, and leaves it as it is. -/
def Silent {α : Type} (x : Eval α) : Prop :=
  ∀ log, ∃ outcome last, ∀ b, x ⟨b, log⟩ = (outcome, ⟨b, last⟩)

section silent

variable {α β : Type}

theorem silent_pure (a : α) : Silent (Pure.pure a) := fun log => ⟨.ok a, log, fun _ => rfl⟩

theorem silent_throw (f : Failure) : Silent (throw f : Eval α) :=
  fun log => ⟨.error f, log, fun _ => rfl⟩

theorem Silent.bind {x : Eval α} {f : α → Eval β} (h : Silent x) (hnext : ∀ a, Silent (f a)) :
    Silent (x >>= f) := by
  intro log
  obtain ⟨outcome, last, hx⟩ := h log
  cases outcome with
  | error e =>
      refine ⟨.error e, last, fun b => ?_⟩
      rw [bind_run, hx]
  | ok a =>
      obtain ⟨outcome, last', hf⟩ := hnext a last
      refine ⟨outcome, last', fun b => ?_⟩
      rw [bind_run, hx]
      exact hf b

theorem silent_nested (x : Eval α) : Silent (nested x) := by
  intro log
  exact ⟨(x ⟨{}, log⟩).1, (x ⟨{}, log⟩).2.log, fun b => nested_run x ⟨b, log⟩⟩

theorem silent_string (t : Deferred) : Silent t.string := by
  rw [Deferred.string]
  cases t.intoString.1 with
  | error e => exact silent_throw _
  | ok s => exact silent_pure _

theorem silent_mapM {f : Deferred → Eval α} (h : ∀ t, Silent (f t)) :
    ∀ t : Option Deferred, Silent (t.mapM f)
  | none => silent_pure none
  | some t => (h t).bind fun a => silent_pure (some a)

theorem silent_collected : ∀ outcome : Except CommandCause α, Silent (collected outcome)
  | .ok items => silent_pure items
  | .error _ => silent_throw _

end silent

/-! ### Steps that add one thing -/

/-- What a step adds to a builder that it does not look at: keys of the metadata, or inline
content, or a block. -/
inductive AddsOne (x : Eval Unit) (log : List LogEntry) : Prop
  | sets (outcome : Except Failure Unit) (entries : Metadata) (last : List LogEntry)
      (h : ∀ b, x ⟨b, log⟩ =
        (outcome, ⟨{ b with metadata := b.metadata.update entries }, last⟩))
  | inline (i : Inline) (last : List LogEntry)
      (h : ∀ b, x ⟨b, log⟩ = (.ok (), ⟨{ b with pending := b.pending ++ [i] }, last⟩))
  | block (value : Block) (last : List LogEntry) (f : BuildFailure → Failure)
      (h : ∀ b, x ⟨b, log⟩ = ExceptT.adapt f (Build.pushBlock value) ⟨b, last⟩)

section addsOne

variable {x : Eval Unit} {log : List LogEntry}

theorem addsOne_pushInline (i : Inline) : AddsOne (pushInline i) log := by
  refine .inline i log fun b => ?_
  rw [pushInline, push, ofBuild, Build.push]
  rfl

theorem addsOne_pushBlock (value : Block) : AddsOne (pushBlock value) log := by
  refine .block value log Failure.ofBuild fun b => ?_
  rw [pushBlock, push, ofBuild, Build.push]

theorem addsOne_pushSpan (span : Span) : AddsOne (push (.span span)) log := by
  refine .inline (.text span.fragment) log fun b => ?_
  rw [push, ofBuild, Build.push]
  rfl

theorem Silent.addsOne (h : Silent x) : AddsOne x log := by
  obtain ⟨outcome, last, hx⟩ := h log
  exact .sets outcome [] last hx

/-- A step that comes to another one, with more in the log, adds what that one adds. -/
theorem AddsOne.of_run {y : Eval Unit} {log' : List LogEntry} (h : AddsOne y log')
    (hrun : ∀ b, x ⟨b, log⟩ = y ⟨b, log'⟩) : AddsOne x log := by
  cases h with
  | sets outcome entries last h => exact .sets outcome entries last fun b => (hrun b).trans (h b)
  | inline i last h => exact .inline i last fun b => (hrun b).trans (h b)
  | block value last f h => exact .block value last f fun b => (hrun b).trans (h b)

theorem Silent.bind_addsOne {α : Type} {y : Eval α} {f : α → Eval Unit} (h : Silent y)
    (hnext : ∀ a log, AddsOne (f a) log) : AddsOne (y >>= f) log := by
  obtain ⟨outcome, last, hy⟩ := h log
  cases outcome with
  | error e =>
      refine .sets (.error e) [] last fun b => ?_
      rw [bind_run, hy]
      rfl
  | ok a =>
      refine (hnext a last).of_run fun b => ?_
      rw [bind_run, hy]

theorem AddsOne.adapt (h : AddsOne x log) (g : Failure → Failure) :
    AddsOne (ExceptT.adapt g x) log := by
  cases h with
  | sets outcome entries last h =>
      refine .sets (outcome.mapError g) entries last fun b => ?_
      rw [adapt_run, h]
      cases outcome <;> rfl
  | inline i last h =>
      refine .inline i last fun b => ?_
      rw [adapt_run, h]
  | block value last f h =>
      refine .block value last (fun e => g (f e)) fun b => ?_
      rw [adapt_run, h, adapt_run, adapt_run]
      rcases Build.pushBlock value ⟨b, last⟩ with ⟨e | u, after⟩ <;> rfl

end addsOne

end Eval

/-! ### Commands -/

theorem setEntries_run : ∀ (entries : Keywords) (log : List LogEntry),
    ∃ outcome sets last, ∀ b : Builder, setEntries entries ⟨b, log⟩ =
      (outcome, ⟨{ b with metadata := b.metadata.update sets }, last⟩)
  | [], log => ⟨.ok (), [], log, fun _ => rfl⟩
  | (key, t) :: rest, log => by
      obtain ⟨outcome, last, hstring⟩ := Eval.silent_string t log
      cases outcome with
      | error e =>
          refine ⟨.error e, [], last, fun b => ?_⟩
          rw [setEntries, bind_run, hstring]
          rfl
      | ok text =>
          obtain ⟨outcome, sets, last', hrest⟩ := setEntries_run rest last
          refine ⟨outcome, (key, text) :: sets, last', fun b => ?_⟩
          rw [setEntries, bind_run, hstring]
          exact hrest { b with metadata := b.metadata.set key text }

namespace Args

/-- Whatever the arguments are, all that is returned has the property. -/
def Returns {α : Type} (P : α → Prop) (take : Take α) : Prop :=
  ∀ args a rest, take args = .ok (a, rest) → P a

theorem Returns.pure {α : Type} {P : α → Prop} {a : α} (h : P a) : Returns P (Pure.pure a) := by
  rintro args _ _ ⟨⟩
  exact h

theorem Returns.bind {α β : Type} {P : β → Prop} {take : Take α} {next : α → Take β}
    (h : ∀ a, Returns P (next a)) : Returns P (take >>= next) := by
  intro args b rest hrun
  obtain ⟨a, between, -, hnext⟩ := bind_ok hrun
  exact h a between b rest hnext

end Args

open Eval Args in
/-- **The body of a standard command adds one thing.** -/
theorem Builtin.invoke_addsOne (kind : Builtin) :
    Returns (fun i => ∀ run log, AddsOne (i.body run) log) kind.invoke := by
  cases kind with
  | par => exact .bind fun _ => .pure fun _ _ => addsOne_pushBlock _
  | rule => exact .bind fun _ => .pure fun _ _ => addsOne_pushBlock _
  | heading level =>
      refine .bind fun t => .pure fun run log => ?_
      exact (silent_nested _).bind_addsOne fun _ _ => addsOne_pushBlock _
  | quote =>
      refine .bind fun t => .pure fun run log => ?_
      exact (silent_nested _).bind_addsOne fun _ _ => addsOne_pushBlock _
  | styled style =>
      refine .bind fun t => .pure fun run log => ?_
      exact (silent_nested _).bind_addsOne fun _ _ => addsOne_pushInline _
  | footnote =>
      refine .bind fun t => .pure fun run log => ?_
      exact (silent_nested _).bind_addsOne fun _ _ => addsOne_pushInline _
  | item =>
      refine .bind fun t => .pure fun run log => ?_
      exact (silent_nested _).bind_addsOne fun _ _ => addsOne_pushBlock _
  | list kind =>
      refine .bind fun t => .pure fun run log => ?_
      refine (silent_nested _).bind_addsOne fun blocks _ => ?_
      exact (silent_collected _).bind_addsOne fun _ _ => addsOne_pushBlock _
  | terms =>
      refine .bind fun t => .pure fun run log => ?_
      refine (silent_nested _).bind_addsOne fun blocks _ => ?_
      exact (silent_collected _).bind_addsOne fun _ _ => addsOne_pushBlock _
  | term =>
      refine .bind fun t => .bind fun u => .bind fun _ => .pure fun run log => ?_
      refine (silent_nested _).bind_addsOne fun term _ => ?_
      exact (silent_nested _).bind_addsOne fun _ _ => addsOne_pushBlock _
  | metadata =>
      refine .bind fun _ => .bind fun entries => .pure fun run log => ?_
      obtain ⟨outcome, sets, last, hrun⟩ := setEntries_run entries log
      exact .sets outcome sets last hrun
  | math display =>
      refine .bind fun t => .pure fun run log => ?_
      refine (silent_string t).bind_addsOne fun tex _ => ?_
      cases display with
      | true => exact addsOne_pushBlock _
      | false => exact addsOne_pushInline _
  | code block =>
      refine .bind fun t => .bind fun lang => .bind fun _ => .pure fun run log => ?_
      refine (silent_string t).bind_addsOne fun content _ => ?_
      refine (silent_mapM silent_string lang).bind_addsOne fun language _ => ?_
      cases block with
      | true => exact addsOne_pushBlock _
      | false => exact addsOne_pushInline _
  | link =>
      have hbody : ∀ (url : Deferred) (text : Option Deferred) (run : Runner) (log : List LogEntry),
          AddsOne (do
            let content ← text.mapM (Deferred.intoInlines run)
            pushInline (.link (← url.string) content none .url)) log := by
        intro url text run log
        refine (silent_mapM (fun t => silent_nested _) text).bind_addsOne fun content _ => ?_
        exact (silent_string url).bind_addsOne fun _ _ => addsOne_pushInline _
      -- The address may be a keyword, and the text may be missing.
      refine .bind fun found => ?_
      cases found with
      | some url =>
          refine .bind fun url => .bind fun args => ?_
          dsimp only
          split
          · exact .bind fun text => .bind fun _ => .pure (hbody url text)
          · exact .bind fun text => .bind fun _ => .pure (hbody url text)
      | none =>
          refine .bind fun url => .bind fun args => ?_
          dsimp only
          split
          · exact .bind fun text => .bind fun _ => .pure (hbody url text)
          · exact .bind fun text => .bind fun _ => .pure (hbody url text)

/-! ### Calls -/

theorem callBody_addsOne (w : World Builtin) (c : Call)
    (call : Invocation Builtin → Call → Eval Unit) (log : List LogEntry) :
    (w.callBody Builtin.library c call).AddsOne log := by
  cases hfound : w.found Builtin.library c with
  | error e =>
      refine .sets (.error e) [] (log ++ w.tells c) fun b => ?_
      rw [World.callBody_run, hfound]
      rfl
  | ok found =>
      obtain ⟨d, i⟩ := found
      obtain ⟨-, args, rest, -, hbind⟩ := World.exists_of_found_eq_ok hfound
      rw [Builtin.library_invoke] at hbind
      have hbody := Builtin.invoke_addsOne d.kind args i rest hbind (runPieces (call i))
        (log ++ w.tells c)
      refine (hbody.adapt (w.settle c)).of_run fun b => ?_
      rw [World.callBody_run, hfound]

theorem callWithin_addsOne (levels : Nat) (w : World Builtin) (c : Call) (log : List LogEntry) :
    (w.callWithin {} Builtin.library levels c).AddsOne log := by
  cases levels with
  | zero => exact (Eval.silent_throw _).addsOne
  | succ levels =>
      rw [World.callWithin_succ]
      exact callBody_addsOne w c _ log

end Markup
