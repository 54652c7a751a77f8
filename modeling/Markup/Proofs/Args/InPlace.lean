import Markup.Proofs.Args
import Markup.Proofs.Step
import Mathlib.Data.List.Perm.Basic

/-! # No argument is lost

A command asks for its arguments by a sequence of operations: it takes one off, by position or by
name, or checks that none is left.  A step of `Args.Take` that fails hands nothing on, so what it
had taken by then would not show.  Here the operations work on arguments that are changed where they
are held (`Args.InPlace`), so that whatever is taken off stays off, and a command may go on after an
operation that failed.  Both come to the same (`Operation.inPlace_eq`).

An operation takes off the first positional argument, or the last, or one with a name, or none at
all (`Args.Takes`).  So after any operations each of the arguments has either been returned or is
still held, those held being in their order (`Args.Conserves`), and none is left exactly if all have
been returned.  The main statement is `Args.operations_conserve`. -/

namespace Markup

theorem Keywords.exists_of_pop? {name : String} {t : Deferred} : ∀ {ks others : Keywords},
    ks.pop? name = some (t, others) →
      ∃ before after, ks = before ++ (name, t) :: after ∧ others = before ++ after
  | (n, old) :: rest, others, h => by
      unfold Keywords.pop? at h
      split at h
      · next hn =>
        cases h
        exact ⟨[], rest, by rw [hn]; rfl, rfl⟩
      · obtain ⟨⟨u, others'⟩, hpop, heq⟩ := Option.map_eq_some_iff.mp h
        cases heq
        obtain ⟨before, after, rfl, rfl⟩ := Keywords.exists_of_pop? hpop
        exact ⟨(n, old) :: before, after, rfl, rfl⟩

namespace Args

/-! ### Operations -/

/-- What a command may ask of its arguments. -/
inductive Operation where
  | popMandatory (name : String)
  | popPositional (name : Option String)
  | popKeyword (name : String)
  | popOptional (name : String)
  | checkNone
  | checkNoPositional
  | checkNoKeywords
deriving DecidableEq, Repr

/-- The step of a command, which returns the argument that it takes, if any. -/
def Operation.take : Operation → Take (Option Deferred)
  | popMandatory name => do return some (← Args.popMandatory name)
  | popPositional name => do return some (← Args.popPositional name)
  | popKeyword name => do return some (← Args.popKeyword name)
  | popOptional name => Args.popOptional name
  | checkNone => do
    Args.checkNone
    return none
  | checkNoPositional => do
    Args.checkNoPositional
    return none
  | checkNoKeywords => do
    Args.checkNoKeywords
    return none

/-- Steps on arguments that are changed where they are held: what a step takes off stays off, also
if it fails afterwards. -/
abbrev InPlace := ExceptT ArgsError (StateM Args)

namespace InPlace

/-- Takes the keyword `name` off, if it is there. -/
def keyword? (name : String) : InPlace (Option Deferred) :=
  modifyGet fun held =>
    match held.keywords.pop? name with
    | some (t, keywords) => (some t, { held with keywords })
    | none => (none, held)

/-- Takes the first positional argument off, if there is one. -/
def first? : InPlace (Option Deferred) :=
  modifyGet fun held => (held.positional.head?, { held with positional := held.positional.tail })

/-- Takes the last positional argument off, if there is one. -/
def last? : InPlace (Option Deferred) :=
  modifyGet fun held =>
    (held.positional.getLast?, { held with positional := held.positional.dropLast })

/-- A step that only looks at the arguments. -/
def look (check : Take Unit) : InPlace (Option Deferred) := do
  match check (← get) with
  | .ok _ => return none
  | .error e => throw e

/-- The argument that was found, or the failure for there being none. -/
def orFail (e : ArgsError) : Option Deferred → InPlace (Option Deferred)
  | some t => return some t
  | none => throw e

end InPlace

open InPlace in
/-- The operation on arguments that are changed where they are held. -/
def Operation.inPlace : Operation → InPlace (Option Deferred)
  | popMandatory name => do
    match ← keyword? name with
    | some t => return some t
    | none => orFail (.missing name) (← last?)
  | popPositional name => do orFail (name.elim .tooFew .missingPositional) (← first?)
  | popKeyword name => do orFail (.missingKeyword name) (← keyword? name)
  | popOptional name => keyword? name
  | checkNone => look Args.checkNone
  | checkNoPositional => look Args.checkNoPositional
  | checkNoKeywords => look Args.checkNoKeywords

/-! ### One operation -/

section operation

variable (name : String) (held : Args)

theorem take_bind {α β : Type} (take : Take α) (next : α → Take β) :
    (take >>= next) held = match take held with
      | .ok (a, rest) => next a rest
      | .error e => .error e := by
  change (take held >>= fun p => next p.1 p.2) = _
  cases take held <;> rfl

theorem popOptional_run :
    popOptional name held = match held.keywords.pop? name with
      | some (t, keywords) => .ok (some t, { held with keywords })
      | none => .ok (none, held) := by
  rw [popOptional, take_bind]
  dsimp only [get, getThe, MonadStateOf.get, StateT.get, pure, Except.pure]
  cases held.keywords.pop? name <;> rfl

theorem popKeyword_run :
    popKeyword name held = match held.keywords.pop? name with
      | some (t, keywords) => .ok (t, { held with keywords })
      | none => .error (.missingKeyword name) := by
  rw [popKeyword, take_bind, popOptional_run]
  cases held.keywords.pop? name <;> rfl

theorem popMandatory_run :
    popMandatory name held = match held.keywords.pop? name with
      | some (t, keywords) => .ok (t, { held with keywords })
      | none =>
        match held.positional.getLast? with
        | some t => .ok (t, { held with positional := held.positional.dropLast })
        | none => .error (.missing name) := by
  rw [popMandatory, take_bind]
  dsimp only [get, getThe, MonadStateOf.get, StateT.get, pure, Except.pure]
  cases held.keywords.pop? name with
  | some p => rfl
  | none => cases held.positional.getLast? <;> rfl

theorem keyword?_run :
    InPlace.keyword? name held = match held.keywords.pop? name with
      | some (t, keywords) => (.ok (some t), { held with keywords })
      | none => (.ok none, held) := by
  change (match (match held.keywords.pop? name with
    | some (t, keywords) => (some t, { held with keywords })
    | none => (none, held)) with | (found, rest) => (Except.ok found, rest)) = _
  cases held.keywords.pop? name <;> rfl

end operation

/-- **Nothing is lost in a step that fails**: changing the arguments where they are held comes to
the same as handing them on only from a step that succeeds. -/
theorem Operation.inPlace_eq (op : Operation) (held : Args) :
    op.inPlace held = match op.take held with
      | .ok (found, rest) => (.ok found, rest)
      | .error e => (.error e, held) := by
  cases op with
  | popMandatory name =>
      rw [inPlace, bind_run, keyword?_run, take, take_bind, popMandatory_run]
      cases held.keywords.pop? name with
      | some p => rfl
      | none =>
          obtain ⟨positional, keywords⟩ := held
          cases positional <;> rfl
  | popPositional name =>
      obtain ⟨positional, keywords⟩ := held
      cases positional with
      | nil => cases name <;> rfl
      | cons => rfl
  | popKeyword name =>
      rw [inPlace, bind_run, keyword?_run, take, take_bind, popKeyword_run]
      cases held.keywords.pop? name <;> rfl
  | popOptional name =>
      rw [inPlace, keyword?_run, take, popOptional_run]
      cases held.keywords.pop? name <;> rfl
  | checkNone =>
      obtain ⟨positional, keywords⟩ := held
      cases positional <;> cases keywords <;> rfl
  | checkNoPositional =>
      obtain ⟨positional, keywords⟩ := held
      cases positional <;> rfl
  | checkNoKeywords =>
      obtain ⟨positional, keywords⟩ := held
      cases keywords <;> rfl

/-- The argument that an operation has returned, if any. -/
def found? (outcome : Except ArgsError (Option Deferred)) : Option Deferred :=
  outcome.toOption.join

/-- An argument is taken off those that are held, or none. -/
inductive Takes (held : Args) : Option Deferred → Args → Prop
  | first {t : Deferred} {rest : List Deferred} (h : held.positional = t :: rest) :
      Takes held (some t) { held with positional := rest }
  | last {t : Deferred} {rest : List Deferred} (h : held.positional = rest ++ [t]) :
      Takes held (some t) { held with positional := rest }
  | keyword {name : String} {t : Deferred} {before after : Keywords}
      (h : held.keywords = before ++ (name, t) :: after) :
      Takes held (some t) { held with keywords := before ++ after }
  | nothing : Takes held none held

section takes

variable (held : Args)

theorem takes_keyword? (name : String) :
    ∃ found rest, InPlace.keyword? name held = (.ok found, rest) ∧ Takes held found rest := by
  rw [keyword?_run]
  cases hpop : held.keywords.pop? name with
  | none => exact ⟨none, held, rfl, .nothing⟩
  | some p =>
      obtain ⟨before, after, hheld, hothers⟩ := Keywords.exists_of_pop? hpop
      refine ⟨_, _, rfl, ?_⟩
      rw [hothers]
      exact .keyword hheld

theorem takes_first? : ∃ found rest, InPlace.first? held = (.ok found, rest) ∧
    Takes held found rest := by
  obtain ⟨positional, keywords⟩ := held
  cases positional with
  | nil => exact ⟨none, _, rfl, .nothing⟩
  | cons t rest => exact ⟨some t, _, rfl, .first rfl⟩

theorem takes_last? : ∃ found rest, InPlace.last? held = (.ok found, rest) ∧
    Takes held found rest := by
  obtain ⟨positional, keywords⟩ := held
  cases positional with
  | nil => exact ⟨none, _, rfl, .nothing⟩
  | cons t rest =>
      have hne : t :: rest ≠ [] := List.cons_ne_nil t rest
      exact ⟨_, _, rfl, .last (List.dropLast_append_getLast hne).symm⟩

variable {held} in
theorem Takes.eq_of_none {rest : Args} (h : Takes held none rest) : rest = held := by
  cases h
  rfl

theorem look_run (check : Take Unit) :
    ∃ outcome, InPlace.look check held = (outcome, held) ∧ found? outcome = none := by
  have hget : (get : InPlace Args) held = (.ok held, held) := rfl
  rw [InPlace.look, bind_run, hget]
  dsimp only
  cases check held <;> exact ⟨_, rfl, rfl⟩

end takes

/-- **What an operation does**: the argument that it returns is taken off, and nothing else; if it
returns none, nothing is. -/
theorem Operation.takes (op : Operation) (held : Args) :
    Takes held (found? (op.inPlace held).1) (op.inPlace held).2 := by
  have hlook : ∀ check, Takes held (found? (InPlace.look check held).1)
      (InPlace.look check held).2 := by
    intro check
    obtain ⟨outcome, hrun, hnone⟩ := look_run held check
    rw [hrun, hnone]
    exact .nothing
  cases op with
  | popMandatory name =>
      obtain ⟨found, rest, hkeyword, htakes⟩ := takes_keyword? held name
      rw [inPlace, bind_run, hkeyword]
      cases found with
      | some t => exact htakes
      | none =>
          -- There is no keyword of that name, and nothing has been changed yet.
          obtain rfl := htakes.eq_of_none
          obtain ⟨found, rest', hlast, htakes⟩ := takes_last? rest
          dsimp only
          rw [bind_run, hlast]
          cases found <;> exact htakes
  | popPositional name =>
      obtain ⟨found, rest, hfirst, htakes⟩ := takes_first? held
      rw [inPlace, bind_run, hfirst]
      cases found <;> exact htakes
  | popKeyword name =>
      obtain ⟨found, rest, hkeyword, htakes⟩ := takes_keyword? held name
      rw [inPlace, bind_run, hkeyword]
      cases found <;> exact htakes
  | popOptional name =>
      obtain ⟨found, rest, hkeyword, htakes⟩ := takes_keyword? held name
      rw [inPlace, hkeyword]
      exact htakes
  | checkNone | checkNoPositional | checkNoKeywords => exact hlook _

/-! ### Operations in turn -/

/-- The arguments that are held after some operations.  One that fails does not keep the next from
being tried. -/
def after (held : Args) : List Operation → Args
  | [] => held
  | op :: ops => after (op.inPlace held).2 ops

/-- The arguments that some operations return, in turn. -/
def returned (held : Args) : List Operation → List Deferred
  | [] => []
  | op :: ops => (found? (op.inPlace held).1).toList ++ returned (op.inPlace held).2 ops

/-- All arguments, whatever their names. -/
def all (args : Args) : List Deferred := args.positional ++ args.keywords.map Prod.snd

/-- Of the arguments that were given at first, each has either been returned or is still held: the
first and the last positional ones have been returned, and those in between are held in their
order; and those with the names `named` have been returned, and the others are held. -/
def Conserves (given : Args) (returned : List Deferred) (held : Args) : Prop :=
  ∃ (front back : List Deferred) (named : Keywords),
    given.positional = front ++ held.positional ++ back ∧
    given.keywords.Perm (named ++ held.keywords) ∧ held.keywords.Sublist given.keywords ∧
    returned.Perm (front ++ back ++ named.map Prod.snd)

section conserves

variable {given held rest : Args} {before : List Deferred}

theorem perm_insert (front back : List Deferred) (t : Deferred) :
    (front ++ back ++ [t]).Perm (front ++ t :: back) := by
  rw [List.append_assoc]
  exact List.perm_append_comm.append_left front

theorem Conserves.takes {found : Option Deferred} (h : Conserves given before held)
    (htakes : Takes held found rest) : Conserves given (before ++ found.toList) rest := by
  obtain ⟨front, back, named, hpositional, hkeywords, horder, hreturned⟩ := h
  have hinsert : ∀ t, (before ++ [t]).Perm (front ++ t :: (back ++ named.map Prod.snd)) := by
    intro t
    rw [List.append_assoc] at hreturned
    exact (hreturned.append_right [t]).trans (perm_insert front _ t)
  cases htakes with
  | @first t more hheld =>
      refine ⟨front ++ [t], back, named, ?_, hkeywords, horder, ?_⟩
      · rw [hpositional, hheld]
        simp
      · simpa using hinsert t
  | @last t more hheld =>
      refine ⟨front, t :: back, named, ?_, hkeywords, horder, ?_⟩
      · rw [hpositional, hheld]
        simp
      · simpa using hinsert t
  | @keyword name t first others hheld =>
      refine ⟨front, back, named ++ [(name, t)], hpositional, ?_, ?_, ?_⟩
      · rw [hheld] at hkeywords
        rw [List.append_assoc]
        exact hkeywords.trans (List.perm_middle.append_left named)
      · rw [hheld] at horder
        exact ((List.sublist_cons_self (name, t) others).append_left first).trans horder
      · rw [List.map_append, ← List.append_assoc]
        exact hreturned.append_right [t]
  | nothing =>
      refine ⟨front, back, named, hpositional, hkeywords, horder, ?_⟩
      rw [Option.toList_none, List.append_nil]
      exact hreturned

theorem Conserves.run (h : Conserves given before held) (ops : List Operation) :
    Conserves given (before ++ returned held ops) (after held ops) := by
  induction ops generalizing before held with
  | nil =>
      rw [returned, List.append_nil]
      exact h
  | cons op ops ih =>
      rw [returned, after, ← List.append_assoc]
      exact ih (h.takes (op.takes held))

/-- What has been returned and what is held make up what was given. -/
theorem Conserves.perm (h : Conserves given before held) : (before ++ held.all).Perm given.all := by
  obtain ⟨front, back, named, hpositional, hkeywords, -, hreturned⟩ := h
  have hgiven : given.all.Perm (front ++ held.positional ++ back ++
      (named ++ held.keywords).map Prod.snd) := by
    rw [all, hpositional]
    exact (hkeywords.map Prod.snd).append_left _
  refine (hreturned.append_right held.all).trans (List.Perm.trans ?_ hgiven.symm)
  have hmove := List.perm_append_comm_assoc (back ++ named.map Prod.snd) held.positional
    (held.keywords.map Prod.snd)
  simpa [all] using hmove.append_left front

end conserves

theorem checkNone_inPlace_iff (held : Args) :
    (∃ found, (Operation.checkNone.inPlace held).1 = .ok found) ↔ held.all = [] := by
  obtain ⟨positional, keywords⟩ := held
  cases positional with
  | cons t positional =>
      refine iff_of_false ?_ (List.cons_ne_nil _ _)
      rintro ⟨found, h⟩
      cases h
  | nil =>
      cases keywords with
      | nil => exact iff_of_true ⟨none, rfl⟩ rfl
      | cons k keywords =>
          refine iff_of_false ?_ (List.cons_ne_nil _ _)
          rintro ⟨found, h⟩
          cases h

/-- **No argument is lost, and none is returned twice.**  After any operations, each of the
arguments that were given has either been returned or is still held, those held being in their
order.  An operation that fails, or returns no argument, leaves all as they are; and it is found
that none is left exactly if all have been returned.  All this is so for the steps that commands
take, which hand on what is left only where they succeed. -/
theorem operations_conserve (given : Args) (ops : List Operation) :
    Conserves given (returned given ops) (after given ops) ∧
      (∀ op : Operation, found? (op.inPlace (after given ops)).1 = none →
        (op.inPlace (after given ops)).2 = after given ops) ∧
      ((∃ found, (Operation.checkNone.inPlace (after given ops)).1 = .ok found) ↔
        (returned given ops).Perm given.all) ∧
      ∀ op : Operation, op.inPlace (after given ops) = match op.take (after given ops) with
        | .ok (found, rest) => (.ok found, rest)
        | .error e => (.error e, after given ops) := by
  have hstart : Conserves given [] given :=
    ⟨[], [], [], by simp, List.Perm.refl _, List.Sublist.refl _, List.Perm.refl _⟩
  have hconserves := hstart.run ops
  rw [List.nil_append] at hconserves
  refine ⟨hconserves, ?_, ?_, fun op => op.inPlace_eq _⟩
  · intro op hnone
    have htakes := op.takes (after given ops)
    rw [hnone] at htakes
    exact htakes.eq_of_none
  · rw [checkNone_inPlace_iff]
    have hperm := hconserves.perm
    constructor
    · intro hnone
      rwa [hnone, List.append_nil] at hperm
    · intro hall
      have hlength := hperm.length_eq
      rw [List.length_append, hall.length_eq] at hlength
      exact List.length_eq_zero_iff.mp (by omega)

end Args

end Markup
