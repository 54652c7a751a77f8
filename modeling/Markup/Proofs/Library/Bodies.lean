import Markup.Library
import Markup.Proofs.Eval.Invocation

/-! # The standard commands as steps of evaluation

`Builtin.invoke` says once more what each standard command does, in steps of evaluation that use
every argument by itself.  That is what the commands come to (`Builtin.library_invoke`): none of
them uses an argument twice, so that the steps which it holds spent arguments for never fail for
that. -/

namespace Markup

open Args

/-- A collection, or the reason why there is none. -/
def collected {α : Type} : Except CommandCause α → Eval α
  | .ok a => return a
  | .error cause => Eval.failWith cause

/-- Sets the entries of a metadata command in turn. -/
def setEntries : Keywords → Eval Unit
  | [] => return
  | (key, value) :: rest => do
    Eval.ofBuild (Build.setMetadata key (← value.string))
    setEntries rest

namespace Builtin

/-- Gives a standard command its arguments. -/
def invoke : Builtin → Take (Invocation Builtin)
  | par => do
    checkNone
    return { body := fun _ => Eval.pushBlock (.par []) }
  | heading level => do
    let title ← onlyArgument "title"
    return { body := fun run => do Eval.pushBlock (.heading level (← title.intoInlines run)) }
  | rule => do
    checkNone
    return { body := fun _ => Eval.pushBlock .rule }
  | quote => do
    let content ← onlyArgument "content"
    return { body := fun run => do Eval.pushBlock (.blockQuote (← content.intoBlocks run)) }
  | metadata => do
    checkNoPositional
    let entries ← popKeywords
    return { body := fun _ => setEntries entries }
  | styled style => do
    let content ← onlyArgument "content"
    return { body := fun run => do Eval.pushInline (.styled style (← content.intoInlines run)) }
  | code block => do
    let content ← popPositional (some "content")
    let language ← popOptional "lang"
    checkNone
    return {
      body := fun _ => do
        let content ← content.string
        let language ← language.mapM Deferred.string
        if block then Eval.pushBlock (.codeBlock language [.text content])
        else Eval.pushInline (.code content language) }
  | math display => do
    let tex ← onlyArgument "tex"
    return {
      body := fun _ => do
        let tex ← tex.string
        if display then Eval.pushBlock (.mathBlock tex) else Eval.pushInline (.math tex) }
  | footnote => do
    let content ← onlyArgument "content"
    return { body := fun run => do Eval.pushInline (.footnote (← content.intoBlocks run)) }
  | link => do
    let url ← do
      match ← popOptional "url" with
      | some url => pure url
      | none => popPositional (some "url")
    let text ← if (← get).positional.isEmpty then pure none else some <$> popPositional none
    checkNone
    return {
      body := fun run => do
        let content ← text.mapM (Deferred.intoInlines run)
        Eval.pushInline (.link (← url.string) content none .url) }
  | list kind => do
    let content ← onlyArgument "body"
    return {
      locals := some (.ofDefinitions [itemDefinition])
      body := fun run => do
        let blocks ← content.intoBlocks run
        Eval.pushBlock (.list kind (← collected (collectItems blocks))) }
  | item => do
    let content ← onlyArgument "content"
    return {
      body := fun run => do
        Eval.pushBlock (.list .unordered [.mk (← content.intoBlocks run) none]) }
  | terms => do
    let content ← onlyArgument "body"
    return {
      locals := some (.ofDefinitions [termDefinition])
      body := fun run => do
        let blocks ← content.intoBlocks run
        Eval.pushBlock (.termList (← collected (collectTerms blocks))) }
  | term => do
    let term ← popPositional (some "term")
    let definition ← popPositional (some "definition")
    checkNone
    return {
      body := fun run => do
        let term ← term.intoInlines run
        Eval.pushBlock (.termList [.mk term (← definition.intoBlocks run)]) }

end Builtin

/-! ### Bodies -/

section bodies

variable {run : Runner}

theorem run_ofCollection_bind {α β : Type} (outcome : Except CommandCause α)
    (next : α → Steps β) (held : List Deferred) :
    (ofCollection outcome >>= next).run run held =
      collected outcome >>= fun a => (next a).run run held := by
  cases outcome <;> rfl

/-- The texts of the arguments from some place on, one after the other. -/
theorem run_setKeys (entries : Keywords) (spent : List Deferred) :
    (setKeys (entries.map (·.1)) spent.length).run run (spent ++ entries.map (·.2)) =
      setEntries entries := by
  induction entries generalizing spent with
  | nil => rfl
  | cons entry rest ih =>
      obtain ⟨key, t⟩ := entry
      have hget : (spent ++ t :: rest.map (·.2))[spent.length]? = some t := by simp
      have hset : (spent ++ t :: rest.map (·.2)).set spent.length t.use.2 =
          (spent ++ [t.use.2]) ++ rest.map (·.2) := by simp
      have hnext := ih (spent ++ [t.use.2])
      rw [List.length_append, List.length_singleton] at hnext
      rw [List.map_cons, List.map_cons, setKeys, Steps.run_textOf_bind hget, setEntries]
      congr 1
      funext text
      rw [Steps.run_setKey_bind, hset, hnext]

variable {t : Deferred} {ts : List Deferred}

theorem run_blocksOf (next : List Block → Steps Unit) :
    (Steps.blocksOf 0 >>= next).run run (t :: ts) =
      t.intoBlocks run >>= fun bs => (next bs).run run (t.use.2 :: ts) :=
  Steps.run_blocksOf_bind rfl next

theorem run_inlinesOf (next : List Inline → Steps Unit) :
    (Steps.inlinesOf 0 >>= next).run run (t :: ts) =
      t.intoInlines run >>= fun is => (next is).run run (t.use.2 :: ts) :=
  Steps.run_inlinesOf_bind rfl next

theorem run_textOf (next : String → Steps Unit) :
    (Steps.textOf 0 >>= next).run run (t :: ts) =
      t.string >>= fun s => (next s).run run (t.use.2 :: ts) :=
  Steps.run_textOf_bind rfl next

/-- An argument that may be missing stands behind another one. -/
theorem run_mapM_textOf (u : Option Deferred) (next : Option String → Steps Unit) :
    (u.mapM (fun _ => Steps.textOf 1) >>= next).run run (t :: u.toList) =
      u.mapM Deferred.string >>= fun s => (next s).run run (t :: (u.map (·.use.2)).toList) := by
  cases u with
  | none => rfl
  | some u =>
      have hmap : (some u).mapM (fun _ => Steps.textOf 1) >>= next =
          Steps.textOf 1 >>= fun s => next (some s) := rfl
      rw [hmap, Steps.run_textOf_bind rfl]
      simp only [Option.mapM_some, map_eq_pure_bind, bind_assoc, pure_bind]
      rfl

theorem run_mapM_inlinesOf (u : Option Deferred) (next : Option (List Inline) → Steps Unit) :
    (u.mapM (fun _ => Steps.inlinesOf 1) >>= next).run run (t :: u.toList) =
      u.mapM (Deferred.intoInlines run) >>= fun is =>
        (next is).run run (t :: (u.map (·.use.2)).toList) := by
  cases u with
  | none => rfl
  | some u =>
      have hmap : (some u).mapM (fun _ => Steps.inlinesOf 1) >>= next =
          Steps.inlinesOf 1 >>= fun is => next (some is) := rfl
      rw [hmap, Steps.run_inlinesOf_bind rfl]
      simp only [Option.mapM_some, map_eq_pure_bind, bind_assoc, pure_bind]
      rfl

end bodies

namespace Builtin

/-- A command that takes an argument first, and then goes on. -/
theorem bind_invocation {α : Type} (x : Take α) {next : α → Take (Command Builtin)}
    {next' : α → Take (Invocation Builtin)}
    (h : ∀ a, (next a >>= fun c => pure c.invocation) = next' a) :
    ((x >>= next) >>= fun c => pure c.invocation) = x >>= next' := by
  rw [bind_assoc]
  exact congrArg (x >>= ·) (funext h)

/-- A command that has its arguments. -/
theorem pure_invocation {arguments : List Deferred} {steps : Steps Unit}
    {locals : Option (Frame Builtin)} {body : Runner → Eval Unit}
    (h : ∀ run, steps.run run arguments = body run) :
    ((pure ⟨arguments, steps, locals⟩ : Take (Command Builtin)) >>= fun c => pure c.invocation) =
      pure ⟨body, locals⟩ := by
  rw [pure_bind]
  exact congrArg (fun body => pure (Invocation.mk body locals)) (funext h)

/-- A link with its target, whose text may be missing. -/
theorem link_invocation (url : Deferred) :
    (((do
        let text ← if (← get).positional.isEmpty then pure none else some <$> popPositional none
        checkNone
        return {
          arguments := url :: text.toList
          steps := do
            let content ← text.mapM fun _ => .inlinesOf 1
            .pushInline (.link (← .textOf 0) content none .url) }) : Take (Command Builtin)) >>=
      fun c => pure c.invocation) =
    (do
      let text ← if (← get).positional.isEmpty then pure none else some <$> popPositional none
      checkNone
      return { body := fun run => do
        let content ← text.mapM (Deferred.intoInlines run)
        Eval.pushInline (.link (← url.string) content none .url) }) := by
  refine bind_invocation _ fun args => ?_
  split
  all_goals
    refine bind_invocation _ fun text => bind_invocation _ fun _ => pure_invocation fun run => ?_
    rw [run_mapM_inlinesOf]
    refine congrArg (text.mapM (Deferred.intoInlines run) >>= ·) (funext fun content => ?_)
    rw [run_textOf]
    simp only [Steps.run_pushInline]

/-- **No standard command uses an argument twice**: each does what using its arguments one by one
does. -/
theorem library_invoke (kind : Builtin) : library.invoke kind = kind.invoke := by
  have hinvoke : library.invoke kind = kind.bind >>= fun c => pure c.invocation := rfl
  rw [hinvoke]
  cases kind with
  | par => exact bind_invocation _ fun _ => pure_invocation fun _ => Steps.run_pushBlock _
  | rule => exact bind_invocation _ fun _ => pure_invocation fun _ => Steps.run_pushBlock _
  | heading level =>
      refine bind_invocation _ fun t => pure_invocation fun run => ?_
      simp only [run_inlinesOf, Steps.run_pushBlock]
  | quote =>
      refine bind_invocation _ fun t => pure_invocation fun run => ?_
      simp only [run_blocksOf, Steps.run_pushBlock]
  | styled style =>
      refine bind_invocation _ fun t => pure_invocation fun run => ?_
      simp only [run_inlinesOf, Steps.run_pushInline]
  | footnote =>
      refine bind_invocation _ fun t => pure_invocation fun run => ?_
      simp only [run_blocksOf, Steps.run_pushInline]
  | item =>
      refine bind_invocation _ fun t => pure_invocation fun run => ?_
      simp only [run_blocksOf, Steps.run_pushBlock]
  | list kind =>
      refine bind_invocation _ fun t => pure_invocation fun run => ?_
      simp only [run_blocksOf, run_ofCollection_bind, Steps.run_pushBlock]
  | terms =>
      refine bind_invocation _ fun t => pure_invocation fun run => ?_
      simp only [run_blocksOf, run_ofCollection_bind, Steps.run_pushBlock]
  | math display =>
      refine bind_invocation _ fun t => pure_invocation fun run => ?_
      cases display with
      | true => simp only [run_textOf, if_true, Steps.run_pushBlock]
      | false => simp only [run_textOf, Bool.false_eq_true, if_false, Steps.run_pushInline]
  | metadata =>
      refine bind_invocation _ fun _ => bind_invocation _ fun entries => ?_
      exact pure_invocation fun run => run_setKeys entries []
  | term =>
      refine bind_invocation _ fun t => bind_invocation _ fun u => bind_invocation _ fun _ => ?_
      refine pure_invocation fun run => ?_
      rw [run_inlinesOf]
      refine congrArg (t.intoInlines run >>= ·) (funext fun title => ?_)
      rw [Steps.run_blocksOf_bind rfl]
      simp only [Steps.run_pushBlock]
  | code block =>
      refine bind_invocation _ fun t => bind_invocation _ fun u => bind_invocation _ fun _ => ?_
      refine pure_invocation fun run => ?_
      rw [run_textOf]
      refine congrArg (t.string >>= ·) (funext fun text => ?_)
      rw [run_mapM_textOf]
      refine congrArg (u.mapM Deferred.string >>= ·) (funext fun language => ?_)
      cases block with
      | true => simp only [if_true, Steps.run_pushBlock]
      | false => simp only [Bool.false_eq_true, if_false, Steps.run_pushInline]
  | link =>
      refine bind_invocation _ fun found => ?_
      cases found with
      | none => exact bind_invocation _ link_invocation
      | some url => exact bind_invocation _ link_invocation

end Builtin

end Markup
