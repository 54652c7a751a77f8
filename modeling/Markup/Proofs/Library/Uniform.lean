import Markup.Proofs.Library.Bodies
import Markup.Proofs.Eval.Comparison

/-! # The standard commands treat their arguments alike

A standard command does the same with arguments that correspond, in whatever way two evaluations are
compared: it takes what corresponds or refuses both for the same reason, it brings along the same
names for its arguments, and given runners that correspond its two bodies do
(`Builtin.invoke_takes`). So whatever is to be shown of two evaluations is shown of single calls and
of the builder, and never of one command after the other. -/

namespace Markup

namespace Comparison

variable {C : Comparison}

/-- Commands with their arguments that correspond. -/
def Invocations (C : Comparison) (i j : Invocation Builtin) : Prop :=
  i.locals = j.locals ∧ ∀ run run', C.Runners run run' → C.Steps (i.body run) (j.body run')

theorem onlyArgument_takes (name : String) :
    C.Takes C.Deferreds (onlyArgument name) (onlyArgument name) := by
  refine (popPositional_takes (some name)).bind fun t u htu => ?_
  exact checkNone_takes.bind fun _ _ _ => .pure htu

/-- A command that takes one argument does so alike if its bodies are. -/
theorem onlyArgument_invocations (name : String) {make : Deferred → Invocation Builtin}
    (hlocals : ∀ t u, (make t).locals = (make u).locals)
    (hbody : ∀ t u run run', C.Deferreds t u → C.Runners run run' →
      C.Steps ((make t).body run) ((make u).body run')) :
    C.Takes C.Invocations (do let t ← onlyArgument name; return make t)
      (do let t ← onlyArgument name; return make t) := by
  refine (onlyArgument_takes name).bind fun t u htu => .pure ⟨hlocals t u, ?_⟩
  intro run run' hrun
  exact hbody t u run run' htu hrun

theorem setEntries_steps {ks ls : Keywords} (h : List.Forall₂ C.Entries ks ls) :
    C.Steps (setEntries ks) (setEntries ls) := by
  induction h with
  | nil => exact C.pure ()
  | @cons k l ks ls hkl hrest ih =>
      obtain ⟨key, t⟩ := k
      obtain ⟨key', u⟩ := l
      obtain ⟨rfl, htu⟩ : key = key' ∧ C.Deferreds t u := hkl
      refine C.bind htu.string fun text => ?_
      exact C.bind (C.setMetadata key text) fun _ => ih

theorem collected_steps {α : Type} (outcome : Except CommandCause α) :
    C.Steps (collected outcome) (collected outcome) := by
  cases outcome with
  | ok items => exact C.pure items
  | error cause => exact C.fail cause

/-- The text of a link, which may be missing. -/
theorem optionalArgument_takes {make : Option Deferred → Invocation Builtin}
    {make' : Option Deferred → Invocation Builtin}
    (h : ∀ t u, Option.Rel C.Deferreds t u → C.Invocations (make t) (make' u)) :
    C.Takes C.Invocations
      (do
        let text ← if (← get).positional.isEmpty then Pure.pure none
          else some <$> Args.popPositional none
        Args.checkNone
        return make text)
      (do
        let text ← if (← get).positional.isEmpty then Pure.pure none
          else some <$> Args.popPositional none
        Args.checkNone
        return make' text) := by
  have htail : ∀ t u, Option.Rel C.Deferreds t u →
      C.Takes C.Invocations (do Args.checkNone; return make t)
        (do Args.checkNone; return make' u) :=
    fun t u htu => checkNone_takes.bind fun _ _ _ => .pure (h t u htu)
  rintro ⟨ts, ks⟩ ⟨us, ls⟩ ⟨hpositional, hkeywords⟩
  cases hpositional with
  | nil => exact htail none none .none ⟨[], ks⟩ ⟨[], ls⟩ ⟨.nil, hkeywords⟩
  | @cons t u ts us htu hrest =>
      exact htail (some t) (some u) (.some htu) ⟨ts, ks⟩ ⟨us, ls⟩ ⟨hrest, hkeywords⟩

theorem link_takes : C.Takes C.Invocations Builtin.link.invoke Builtin.link.invoke := by
  have hbody : ∀ url url', C.Deferreds url url' → ∀ text text',
      Option.Rel C.Deferreds text text' → C.Invocations
        { body := fun run => do
            let content ← text.mapM (Deferred.intoInlines run)
            Eval.pushInline (.link (← url.string) content none .url) }
        { body := fun run => do
            let content ← text'.mapM (Deferred.intoInlines run)
            Eval.pushInline (.link (← url'.string) content none .url) } := by
    intro url url' hurl text text' htext
    refine ⟨rfl, fun run run' hrun => ?_⟩
    refine C.bind (mapM_steps (fun t u htu => htu.intoInlines hrun) htext) fun content => ?_
    exact C.bind hurl.string fun target => C.pushInline _
  refine (popOptional_takes "url").bind fun found found' hfound => ?_
  cases hfound with
  | none =>
      refine (popPositional_takes (some "url")).bind fun url url' hurl => ?_
      exact optionalArgument_takes (hbody url url' hurl)
  | @some url url' hurl =>
      have hpure : C.Takes C.Deferreds (Pure.pure url) (Pure.pure url') := .pure hurl
      exact hpure.bind fun url url' hurl => optionalArgument_takes (hbody url url' hurl)

end Comparison

open Comparison in
/-- **A standard command does alike with arguments that correspond.** -/
theorem Builtin.invoke_takes (C : Comparison) (kind : Builtin) :
    C.Takes C.Invocations kind.invoke kind.invoke := by
  cases kind with
  | par => exact checkNone_takes.bind fun _ _ _ => .pure ⟨rfl, fun _ _ _ => C.pushBlock _⟩
  | rule => exact checkNone_takes.bind fun _ _ _ => .pure ⟨rfl, fun _ _ _ => C.pushBlock _⟩
  | heading level =>
      refine onlyArgument_invocations "title" (fun _ _ => rfl) fun t u run run' htu hrun => ?_
      exact C.bind (htu.intoInlines hrun) fun content => C.pushBlock _
  | quote =>
      refine onlyArgument_invocations "content" (fun _ _ => rfl) fun t u run run' htu hrun => ?_
      exact C.bind (htu.intoBlocks hrun) fun blocks => C.pushBlock _
  | styled style =>
      refine onlyArgument_invocations "content" (fun _ _ => rfl) fun t u run run' htu hrun => ?_
      exact C.bind (htu.intoInlines hrun) fun content => C.pushInline _
  | footnote =>
      refine onlyArgument_invocations "content" (fun _ _ => rfl) fun t u run run' htu hrun => ?_
      exact C.bind (htu.intoBlocks hrun) fun blocks => C.pushInline _
  | item =>
      refine onlyArgument_invocations "content" (fun _ _ => rfl) fun t u run run' htu hrun => ?_
      exact C.bind (htu.intoBlocks hrun) fun blocks => C.pushBlock _
  | list kind =>
      refine onlyArgument_invocations "body" (fun _ _ => rfl) fun t u run run' htu hrun => ?_
      refine C.bind (htu.intoBlocks hrun) fun blocks => ?_
      exact C.bind (collected_steps _) fun items => C.pushBlock _
  | terms =>
      refine onlyArgument_invocations "body" (fun _ _ => rfl) fun t u run run' htu hrun => ?_
      refine C.bind (htu.intoBlocks hrun) fun blocks => ?_
      exact C.bind (collected_steps _) fun items => C.pushBlock _
  | math display =>
      refine onlyArgument_invocations "tex" (fun _ _ => rfl) fun t u run run' htu hrun => ?_
      refine C.bind htu.string fun tex => ?_
      cases display with
      | true => exact C.pushBlock _
      | false => exact C.pushInline _
  | metadata =>
      refine checkNoPositional_takes.bind fun _ _ _ => ?_
      refine popKeywords_takes.bind fun ks ls hkeywords => ?_
      exact .pure ⟨rfl, fun _ _ _ => setEntries_steps hkeywords⟩
  | term =>
      refine (popPositional_takes (some "term")).bind fun t u htu => ?_
      refine (popPositional_takes (some "definition")).bind fun t' u' htu' => ?_
      refine checkNone_takes.bind fun _ _ _ => .pure ⟨rfl, fun run run' hrun => ?_⟩
      refine C.bind (htu.intoInlines hrun) fun term => ?_
      exact C.bind (htu'.intoBlocks hrun) fun blocks => C.pushBlock _
  | code block =>
      refine (popPositional_takes (some "content")).bind fun t u htu => ?_
      refine (popOptional_takes "lang").bind fun lang lang' hlang => ?_
      refine checkNone_takes.bind fun _ _ _ => .pure ⟨rfl, fun run run' hrun => ?_⟩
      refine C.bind htu.string fun content => ?_
      refine C.bind (mapM_steps (fun t u htu => htu.string) hlang) fun language => ?_
      cases block with
      | true => exact C.pushBlock _
      | false => exact C.pushInline _
  | link => exact link_takes

/-- Calls of one name, whose arguments are read alike, are found alike. -/
theorem Comparison.found_invocations (C : Comparison) {w w' : World Builtin} {c c' : Call}
    (hscope : w.scope = w'.scope) (hname : c.name.fragment = c'.name.fragment)
    (hargs : ∀ mode, List.Forall₂ (C.ReadsAlike mode w.source w'.source) c.args c'.args)
    {d : Definition Builtin} {i : Invocation Builtin}
    (h : w.found Builtin.library c = .ok (d, i)) :
    ∃ i', w'.found Builtin.library c' = .ok (d, i') ∧ C.Invocations i i' := by
  obtain ⟨hfind, args, rest, hread, hbind⟩ := World.exists_of_found_eq_ok h
  obtain ⟨args', hread', harguments⟩ := C.read_arguments (hargs d.mode) hread
  have htakes := Builtin.invoke_takes C d.kind args args' harguments
  rw [Builtin.library_invoke] at hbind
  rw [hbind] at htakes
  cases hbind' : d.kind.invoke args' with
  | error e =>
      rw [hbind'] at htakes
      exact htakes.elim
  | ok bound =>
      rw [hbind'] at htakes
      rw [hscope, hname] at hfind
      rw [← Builtin.library_invoke] at hbind'
      exact ⟨bound.1, World.found_eq_ok hfind hread' hbind', htakes.1⟩

end Markup
