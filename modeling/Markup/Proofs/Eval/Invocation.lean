import Markup.Proofs.Step

/-! # Commands as steps of evaluation

What a command does is data, and an argument that it has used is spent.  An `Invocation` is a
command as a step of evaluation: its `body` says what is done given how arguments are evaluated, and
nothing else can be asked of it.  The rules `Steps.run_textOf_bind`, `Steps.run_blocksOf_bind` and
`Steps.run_inlinesOf_bind` turn the steps of a command into such a body, one use of an argument
after the other: a use does what using that argument alone does (`Deferred.string`,
`Deferred.intoBlocks`, `Deferred.intoInlines`), and the steps go on with the argument spent. -/

namespace Markup

namespace Eval

/-- Pushes inline content. -/
def pushInline (i : Inline) : Eval Unit := push (.inline i)

/-- Pushes a block. -/
def pushBlock (b : Block) : Eval Unit := push (.block b)

/-- Fails with a command's error that knows no place. -/
def failWith {α : Type} (cause : CommandCause) : Eval α := throw (.command ⟨cause, none, none⟩)

end Eval

/-! ### Single arguments -/

namespace Deferred

/-- Uses an argument for its content. -/
def take (t : Deferred) : Eval DeferredContent := Eval.ofCommand t.use.1

/-- Evaluates an argument into the builder. -/
def force (run : Runner) (t : Deferred) : Eval Unit := do (← t.take).force run

/-- Evaluates an argument to blocks. -/
def intoBlocks (run : Runner) (t : Deferred) : Eval (List Block) :=
  Eval.nested do
    t.force run
    Eval.ofBuild Build.intoBlocks

/-- Evaluates an argument to one run of inline content. -/
def intoInlines (run : Runner) (t : Deferred) : Eval (List Inline) :=
  Eval.nested do
    t.force run
    Eval.ofBuild Build.intoInlines

/-- Takes an argument as text. -/
def string (t : Deferred) : Eval String := Eval.ofCommand t.intoString.1

theorem string_eq (t : Deferred) :
    t.string = t.take >>= fun content => Eval.ofCommand content.text := by
  unfold string take intoString
  dsimp only
  cases t.use.1 <;> rfl

theorem intoBlocks_eq (run : Runner) (t : Deferred) :
    t.intoBlocks run = t.take >>= fun content => content.intoBlocks run := by
  unfold intoBlocks force take
  cases t.use.1 <;> rfl

theorem intoInlines_eq (run : Runner) (t : Deferred) :
    t.intoInlines run = t.take >>= fun content => content.intoInlines run := by
  unfold intoInlines force take
  cases t.use.1 <;> rfl

end Deferred

/-! ### Steps -/

theorem useAt_eq {held : List Deferred} {i : Nat} {t : Deferred} (h : held[i]? = some t) :
    useAt held i = t.take >>= fun content => pure (content, held.set i t.use.2) := by
  unfold useAt Deferred.take
  rw [List.getD_eq_getElem?_getD, h]
  rfl

namespace Steps

variable {α : Type} {run : Runner} {held : List Deferred} {i : Nat} {t : Deferred}

theorem run_pushInline (i : Inline) : (pushInline i).run run held = Eval.pushInline i :=
  bind_pure_unit

theorem run_pushBlock (b : Block) : (pushBlock b).run run held = Eval.pushBlock b :=
  bind_pure_unit

theorem run_setKey_bind (key value : String) (next : Unit → Steps α) :
    (setKey key value >>= next).run run held =
      Eval.ofBuild (Build.setMetadata key value) >>= fun u => (next u).run run held := rfl

theorem run_textOf_bind (h : held[i]? = some t) (next : String → Steps α) :
    (textOf i >>= next).run run held =
      t.string >>= fun s => (next s).run run (held.set i t.use.2) := by
  change (useAt held i >>= fun p => Eval.ofCommand p.1.text >>= fun s => (next s).run run p.2) = _
  rw [useAt_eq h, t.string_eq, bind_assoc, bind_assoc]
  rfl

theorem run_blocksOf_bind (h : held[i]? = some t) (next : List Block → Steps α) :
    (blocksOf i >>= next).run run held =
      t.intoBlocks run >>= fun bs => (next bs).run run (held.set i t.use.2) := by
  change (useAt held i >>= fun p => p.1.intoBlocks run >>= fun bs => (next bs).run run p.2) = _
  rw [useAt_eq h, t.intoBlocks_eq, bind_assoc, bind_assoc]
  rfl

theorem run_inlinesOf_bind (h : held[i]? = some t) (next : List Inline → Steps α) :
    (inlinesOf i >>= next).run run held =
      t.intoInlines run >>= fun is => (next is).run run (held.set i t.use.2) := by
  change (useAt held i >>= fun p => p.1.intoInlines run >>= fun is => (next is).run run p.2) = _
  rw [useAt_eq h, t.intoInlines_eq, bind_assoc, bind_assoc]
  rfl

end Steps

/-! ### Commands -/

/-- A command as a step of evaluation, given how its arguments are evaluated. -/
structure Invocation (κ : Type) where
  body : Runner → Eval Unit
  locals : Option (Frame κ) := none

/-- What a command is as a step of evaluation. -/
def Command.invocation {κ : Type} (c : Command κ) : Invocation κ := ⟨c.body, c.locals⟩

/-- Gives a command its arguments and takes it as a step of evaluation. -/
def Library.invoke {κ : Type} (lib : Library κ) (kind : κ) : Args.Take (Invocation κ) := do
  return (← lib.bind kind).invocation

end Markup
