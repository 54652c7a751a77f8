import Markup.Proofs.Args
import Markup.Proofs.Eval.Invocation

/-! # Comparing two evaluations

Two evaluations may be much the same though they are not equal: one has a limit on nesting and the
other has none, or the same text stands at different places of two sources.  A `Comparison` says
which pieces of the two correspond and which steps do, and that steps which correspond may be put
together: one after the other, on a builder of their own, and as the arguments of a command.

Commands take their arguments without looking at them, so that from arguments which correspond they
take arguments which correspond, or refuse both for the same reason (`Comparison.Takes`).  Where
every argument of a call is read to what corresponds, so are all of them (`readFrom_arguments`).
What looking a call up comes to depends on nothing but the call and where it happens, and the log is
told no more than that its name was found (`World.resolve_run`). -/

namespace Markup

/-- A way to compare two evaluations. -/
structure Comparison where
  /-- Pieces that correspond. -/
  Pieces : List Piece → List Piece → Prop
  /-- Ways of evaluating pieces into a new builder that correspond. -/
  Inner : Eval Unit → Eval Unit → Prop
  /-- Steps that correspond; where both return, they return the same. -/
  Steps : {α : Type} → Eval α → Eval α → Prop
  pure : ∀ {α : Type} (a : α), Steps (Pure.pure a) (Pure.pure a)
  bind : ∀ {α β : Type} {x y : Eval α} {f g : α → Eval β}, Steps x y →
    (∀ a, Steps (f a) (g a)) → Steps (x >>= f) (y >>= g)
  fail : ∀ {α : Type} (cause : CommandCause),
    Steps (Eval.failWith cause : Eval α) (Eval.failWith cause)
  pushInline : ∀ i, Steps (Eval.pushInline i) (Eval.pushInline i)
  pushBlock : ∀ b, Steps (Eval.pushBlock b) (Eval.pushBlock b)
  setMetadata : ∀ key value, Steps (Eval.ofBuild (Build.setMetadata key value))
    (Eval.ofBuild (Build.setMetadata key value))
  /-- The texts of pieces that correspond. -/
  string : ∀ {ps qs : List Piece}, Pieces ps qs →
    Steps (Deferred.ofPieces ps).string (Deferred.ofPieces qs).string
  intoBlocks : ∀ {x y : Eval Unit}, Inner x y →
    Steps (Eval.nested do x; Eval.ofBuild Build.intoBlocks)
      (Eval.nested do y; Eval.ofBuild Build.intoBlocks)
  intoInlines : ∀ {x y : Eval Unit}, Inner x y →
    Steps (Eval.nested do x; Eval.ofBuild Build.intoInlines)
      (Eval.nested do y; Eval.ofBuild Build.intoInlines)

namespace Comparison

variable (C : Comparison)

/-- Runners that do with pieces that correspond what corresponds. -/
def Runners (run run' : Runner) : Prop :=
  ∀ ps qs, C.Pieces ps qs → C.Inner (run ps) (run' qs)

/-- Arguments as they are read, of pieces that correspond. -/
def Deferreds (t u : Deferred) : Prop :=
  ∃ ps qs, t = .ofPieces ps ∧ u = .ofPieces qs ∧ C.Pieces ps qs

/-- Keywords of the same name with arguments that correspond. -/
def Entries (k l : String × Deferred) : Prop := k.1 = l.1 ∧ C.Deferreds k.2 l.2

/-- Arguments that correspond one by one, in order. -/
structure Arguments (args args' : Args) : Prop where
  positional : List.Forall₂ C.Deferreds args.positional args'.positional
  keywords : List.Forall₂ C.Entries args.keywords args'.keywords

/-- Ways of taking arguments: from arguments that correspond they take what `R` relates and leave
what corresponds, or both fail for the same reason. -/
def Takes {α : Type} (R : α → α → Prop) (x y : Args.Take α) : Prop :=
  ∀ args args', C.Arguments args args' → match x args, y args' with
    | .ok (a, rest), .ok (b, rest') => R a b ∧ C.Arguments rest rest'
    | .error e, .error e' => e = e'
    | _, _ => False

variable {C}

/-! ### Using arguments -/

section deferred

variable {t u : Deferred} {run run' : Runner}

theorem Deferreds.string (h : C.Deferreds t u) : C.Steps t.string u.string := by
  obtain ⟨ps, qs, rfl, rfl, hpieces⟩ := h
  exact C.string hpieces

theorem Deferreds.intoBlocks (h : C.Deferreds t u) (hrun : C.Runners run run') :
    C.Steps (t.intoBlocks run) (u.intoBlocks run') := by
  obtain ⟨ps, qs, rfl, rfl, hpieces⟩ := h
  exact C.intoBlocks (hrun ps qs hpieces)

theorem Deferreds.intoInlines (h : C.Deferreds t u) (hrun : C.Runners run run') :
    C.Steps (t.intoInlines run) (u.intoInlines run') := by
  obtain ⟨ps, qs, rfl, rfl, hpieces⟩ := h
  exact C.intoInlines (hrun ps qs hpieces)

/-- An argument that may be missing. -/
theorem mapM_steps {α : Type} {f g : Deferred → Eval α}
    (h : ∀ t u, C.Deferreds t u → C.Steps (f t) (g u)) :
    ∀ {t u : Option Deferred}, Option.Rel C.Deferreds t u → C.Steps (t.mapM f) (u.mapM g)
  | _, _, .none => C.pure none
  | _, _, .some htu => C.bind (h _ _ htu) fun a => C.pure (some a)

end deferred

/-! ### Keywords -/

theorem Entries.set {k l : String × Deferred} (h : C.Entries k l) {ks ls : Keywords}
    (hks : List.Forall₂ C.Entries ks ls) :
    List.Forall₂ C.Entries (ks.set k.1 k.2) (ls.set l.1 l.2) := by
  induction hks with
  | nil => exact .cons h .nil
  | @cons m n ks ls hmn hrest ih =>
      rw [Keywords.set, Keywords.set, ← hmn.1, ← h.1]
      split
      · exact .cons ⟨rfl, h.2⟩ hrest
      · rw [← h.1] at ih
        exact .cons ⟨rfl, hmn.2⟩ ih

theorem pop?_entries (name : String) {ks ls : Keywords} (h : List.Forall₂ C.Entries ks ls) :
    Option.Rel (fun p q => C.Deferreds p.1 q.1 ∧ List.Forall₂ C.Entries p.2 q.2)
      (ks.pop? name) (ls.pop? name) := by
  induction h with
  | nil => exact .none
  | @cons k l ks ls hkl hrest ih =>
      rw [Keywords.pop?, Keywords.pop?, ← hkl.1]
      split
      · exact .some ⟨hkl.2, hrest⟩
      · generalize Keywords.pop? ks name = found at ih ⊢
        generalize Keywords.pop? ls name = found' at ih ⊢
        cases ih with
        | none => exact .none
        | some hpq => exact .some ⟨hpq.1, .cons ⟨rfl, hkl.2⟩ hpq.2⟩

theorem map_fst_eq {ks ls : Keywords} (h : List.Forall₂ C.Entries ks ls) :
    ks.map Prod.fst = ls.map Prod.fst := by
  induction h with
  | nil => rfl
  | cons hkl _ ih => rw [List.map_cons, List.map_cons, hkl.1, ih]

/-! ### Taking arguments -/

section takes

variable {α β : Type} {R : α → α → Prop} {S : β → β → Prop}

theorem Takes.pure {a b : α} (h : R a b) : C.Takes R (Pure.pure a) (Pure.pure b) :=
  fun _ _ hargs => ⟨h, hargs⟩

theorem take_bind_run (x : Args.Take α) (f : α → Args.Take β) (args : Args) :
    (x >>= f) args = match x args with
      | .ok (a, rest) => f a rest
      | .error e => .error e := by
  change (x args >>= fun p => f p.1 p.2) = _
  rcases x args with e | ⟨a, rest⟩ <;> rfl

theorem Takes.bind {x y : Args.Take α} {f g : α → Args.Take β} (h : C.Takes R x y)
    (hnext : ∀ a b, R a b → C.Takes S (f a) (g b)) : C.Takes S (x >>= f) (y >>= g) := by
  intro args args' hargs
  have hfirst := h args args' hargs
  rw [take_bind_run, take_bind_run]
  rcases hx : x args with e | ⟨a, rest⟩
  · rw [hx] at hfirst
    rcases hy : y args' with e' | ⟨b, rest'⟩
    · rw [hy] at hfirst
      exact hfirst
    · rw [hy] at hfirst
      exact hfirst.elim
  · rw [hx] at hfirst
    rcases hy : y args' with e' | ⟨b, rest'⟩
    · rw [hy] at hfirst
      exact hfirst.elim
    · rw [hy] at hfirst
      exact hnext a b hfirst.1 rest rest' hfirst.2

theorem popPositional_takes (name : Option String) :
    C.Takes C.Deferreds (Args.popPositional name) (Args.popPositional name) := by
  rintro ⟨ts, ks⟩ ⟨us, ls⟩ ⟨hpositional, hkeywords⟩
  cases hpositional with
  | nil => cases name <;> rfl
  | cons htu hrest => exact ⟨htu, hrest, hkeywords⟩

theorem popOptional_run (name : String) (args : Args) :
    Args.popOptional name args = match args.keywords.pop? name with
      | some (t, keywords) => .ok (some t, { args with keywords })
      | none => .ok (none, args) := by
  unfold Args.popOptional
  rw [take_bind_run]
  change (match args.keywords.pop? name with
    | some (t, keywords) => (do set { args with keywords }; return some t : Args.Take _)
    | none => (return none : Args.Take _)) args = _
  cases args.keywords.pop? name <;> rfl

theorem popOptional_takes (name : String) :
    C.Takes (Option.Rel C.Deferreds) (Args.popOptional name) (Args.popOptional name) := by
  rintro ⟨ts, ks⟩ ⟨us, ls⟩ ⟨hpositional, hkeywords⟩
  have hpop := pop?_entries name hkeywords
  rw [popOptional_run, popOptional_run]
  dsimp only
  generalize Keywords.pop? ks name = found at hpop ⊢
  generalize Keywords.pop? ls name = found' at hpop ⊢
  cases hpop with
  | none => exact ⟨.none, hpositional, hkeywords⟩
  | some hpq => exact ⟨.some hpq.1, hpositional, hpq.2⟩

theorem popKeywords_takes :
    C.Takes (List.Forall₂ C.Entries) Args.popKeywords Args.popKeywords := by
  rintro ⟨ts, ks⟩ ⟨us, ls⟩ ⟨hpositional, hkeywords⟩
  exact ⟨hkeywords, hpositional, .nil⟩

theorem checkNoPositional_takes :
    C.Takes (fun _ _ => True) Args.checkNoPositional Args.checkNoPositional := by
  rintro ⟨ts, ks⟩ ⟨us, ls⟩ ⟨hpositional, hkeywords⟩
  cases hpositional with
  | nil => exact ⟨trivial, .nil, hkeywords⟩
  | cons htu hrest => rfl

theorem checkNoKeywords_takes :
    C.Takes (fun _ _ => True) Args.checkNoKeywords Args.checkNoKeywords := by
  rintro ⟨ts, ks⟩ ⟨us, ls⟩ ⟨hpositional, hkeywords⟩
  have hnames := map_fst_eq hkeywords
  cases hkeywords with
  | nil => exact ⟨trivial, hpositional, .nil⟩
  | @cons k l ks ls hkl hrest =>
      change ArgsError.unexpectedKeywords (((k :: ks).map (·.1)).mergeSort _) =
        .unexpectedKeywords (((l :: ls).map (·.1)).mergeSort _)
      rw [hnames]

theorem checkNone_takes : C.Takes (fun _ _ => True) Args.checkNone Args.checkNone :=
  checkNoPositional_takes.bind fun _ _ _ => checkNoKeywords_takes

end takes

/-! ### Reading arguments -/

/-- Arguments of two calls that have the same name, if any, and are read to pieces that
correspond. -/
def ReadsAlike (C : Comparison) (mode : ArgMode) (source source' : Source) (a b : Argument) :
    Prop :=
  a.name.map Span.fragment = b.name.map Span.fragment ∧
    ∀ ps, mode.read source a.value = .ok ps →
      ∃ qs, mode.read source' b.value = .ok qs ∧ C.Pieces ps qs

theorem Arguments.add {args args' : Args} (h : C.Arguments args args') {t u : Deferred}
    (htu : C.Deferreds t u) : ∀ {name name' : Option Span},
    name.map Span.fragment = name'.map Span.fragment →
      C.Arguments (args.add name t) (args'.add name' u)
  | none, none, _ => ⟨List.rel_append h.positional (.cons htu .nil), h.keywords⟩
  | some name, some name', hname => by
      have hentry : C.Entries (name.fragment, t) (name'.fragment, u) :=
        ⟨Option.some.inj hname, htu⟩
      exact ⟨h.positional, hentry.set h.keywords⟩

theorem readFrom_arguments {mode : ArgMode} {source source' : Source} {as bs : List Argument}
    (h : List.Forall₂ (C.ReadsAlike mode source source') as bs) {args args' read : Args}
    (hargs : C.Arguments args args') (hread : Args.readFrom mode source args as = .ok read) :
    ∃ read', Args.readFrom mode source' args' bs = .ok read' ∧ C.Arguments read read' := by
  induction h generalizing args args' with
  | nil =>
      cases hread
      exact ⟨args', rfl, hargs⟩
  | @cons a b as bs hab hrest ih =>
      unfold Args.readFrom at hread ⊢
      cases hvalue : mode.read source a.value with
      | error e =>
          rw [hvalue] at hread
          cases hread
      | ok ps =>
          rw [hvalue] at hread
          obtain ⟨qs, hvalue', hpieces⟩ := hab.2 ps hvalue
          have hadd := hargs.add ⟨ps, qs, rfl, rfl, hpieces⟩ hab.1
          rw [hvalue']
          exact ih hadd hread

theorem read_arguments {mode : ArgMode} {source source' : Source} {as bs : List Argument}
    (h : List.Forall₂ (C.ReadsAlike mode source source') as bs) {read : Args}
    (hread : Args.read mode source as = .ok read) :
    ∃ read', Args.read mode source' bs = .ok read' ∧ C.Arguments read read' :=
  readFrom_arguments h ⟨.nil, .nil⟩ hread

end Comparison

/-! ### Looking calls up -/

theorem tell_run (e : LogEntry) (s : Session) :
    Eval.tell e s = (.ok (), { s with log := s.log ++ [e] }) := rfl

namespace World

variable {κ : Type}

/-- What looking a call up comes to. -/
def looked (lib : Library κ) (w : World κ) (c : Call) :
    Except Failure (Definition κ × Command κ) :=
  match w.scope.find? c.name.fragment with
  | none => .error (.command ⟨.unbound c.name.fragment, some c.name, some w.source.text⟩)
  | some d =>
    match Args.read d.mode w.source c.args with
    | .error e => .error (.command (.ofParseError e))
    | .ok args =>
      match lib.bind d.kind args with
      | .error e => .error (.command ⟨.arguments e, some c.name, some w.source.text⟩)
      | .ok (command, _) => .ok (d, command)

/-- What is found in the end: a definition, and its command as a step of evaluation. -/
def found (lib : Library κ) (w : World κ) (c : Call) :
    Except Failure (Definition κ × Invocation κ) :=
  (w.looked lib c).map fun (d, command) => (d, command.invocation)

/-- What looking a call up tells. -/
def tells (w : World κ) (c : Call) : List LogEntry :=
  match w.scope.find? c.name.fragment with
  | none => []
  | some _ => [.resolved c.name.fragment c.name.line w.depth]

theorem resolve_run (lib : Library κ) (w : World κ) (c : Call) (s : Session) :
    w.resolve lib c s = (w.looked lib c, { s with log := s.log ++ w.tells c }) := by
  unfold resolve looked tells
  cases w.scope.find? c.name.fragment with
  | none =>
      rw [List.append_nil]
      rfl
  | some d =>
      dsimp only
      rw [bind_run, tell_run]
      dsimp only
      cases Args.read d.mode w.source c.args with
      | error e => rfl
      | ok args =>
          dsimp only [StateT.run]
          cases lib.bind d.kind args <;> rfl

theorem invoke_run (lib : Library κ) (kind : κ) (args : Args) :
    lib.invoke kind args = (lib.bind kind args).map fun (command, rest) =>
      (command.invocation, rest) := by
  change (lib.bind kind args >>= fun p => pure (p.1.invocation, p.2)) = _
  cases lib.bind kind args <;> rfl

/-- What is found, by how the command takes its arguments. -/
theorem found_eq (lib : Library κ) (w : World κ) (c : Call) :
    w.found lib c = match w.scope.find? c.name.fragment with
      | none => .error (.command ⟨.unbound c.name.fragment, some c.name, some w.source.text⟩)
      | some d =>
        match Args.read d.mode w.source c.args with
        | .error e => .error (.command (.ofParseError e))
        | .ok args =>
          match lib.invoke d.kind args with
          | .error e => .error (.command ⟨.arguments e, some c.name, some w.source.text⟩)
          | .ok (invocation, _) => .ok (d, invocation) := by
  unfold found looked
  cases w.scope.find? c.name.fragment with
  | none => rfl
  | some d =>
      dsimp only
      cases Args.read d.mode w.source c.args with
      | error e => rfl
      | ok args =>
          dsimp only
          rw [invoke_run]
          cases lib.bind d.kind args <;> rfl

/-- A call that was found: its name stands for the command, which took the arguments. -/
theorem exists_of_found_eq_ok {lib : Library κ} {w : World κ} {c : Call} {d : Definition κ}
    {i : Invocation κ} (h : w.found lib c = .ok (d, i)) :
    w.scope.find? c.name.fragment = some d ∧ ∃ args rest,
      Args.read d.mode w.source c.args = .ok args ∧ lib.invoke d.kind args = .ok (i, rest) := by
  rw [found_eq] at h
  cases hfind : w.scope.find? c.name.fragment with
  | none =>
      rw [hfind] at h
      cases h
  | some d' =>
      rw [hfind] at h
      dsimp only at h
      cases hread : Args.read d'.mode w.source c.args with
      | error e =>
          rw [hread] at h
          cases h
      | ok args =>
          rw [hread] at h
          dsimp only at h
          cases hbind : lib.invoke d'.kind args with
          | error e =>
              rw [hbind] at h
              cases h
          | ok bound =>
              rw [hbind] at h
              cases h
              exact ⟨rfl, args, bound.2, hread, hbind⟩

theorem found_eq_ok {lib : Library κ} {w : World κ} {c : Call} {d : Definition κ}
    {i : Invocation κ} {args rest : Args} (hfind : w.scope.find? c.name.fragment = some d)
    (hread : Args.read d.mode w.source c.args = .ok args)
    (hbind : lib.invoke d.kind args = .ok (i, rest)) : w.found lib c = .ok (d, i) := by
  rw [found_eq]
  rw [hfind]
  dsimp only
  rw [hread]
  dsimp only
  rw [hbind]

/-- A call that passes the limit. -/
theorem callWithin_run (interpreter : Interpreter) (lib : Library κ) (levels : Nat) (w : World κ)
    (c : Call) (s : Session) :
    callWithin interpreter lib (levels + 1) w c s =
      if interpreter.enters w.depth c then
        match w.looked lib c with
        | .error e => (.error e, { s with log := s.log ++ w.tells c })
        | .ok (_, command) => ExceptT.adapt (w.settle c)
            (if interpreter.runs w.depth c then
              command.body (runPieces (callWithin interpreter lib levels (w.inner command.locals)))
            else throw (.overflow .stack))
            { s with log := s.log ++ w.tells c }
      else (.error (.overflow .stack), s) := by
  rw [callWithin]
  split
  · rw [bind_run, resolve_run]
    cases w.looked lib c <;> rfl
  · rfl

/-- Looks a call up and runs its body, where `call` says what a call inside it does. -/
def callBody (lib : Library κ) (w : World κ) (c : Call) (call : Invocation κ → Call → Eval Unit) :
    Eval Unit :=
  w.resolve lib c >>= fun found =>
    ExceptT.adapt (w.settle c) (found.2.body (runPieces (call found.2.invocation)))

theorem callWithin_succ (lib : Library κ) (levels : Nat) (w : World κ) (c : Call) :
    w.callWithin {} lib (levels + 1) c =
      w.callBody lib c fun i => callWithin {} lib levels (w.inner i.locals) := rfl

theorem callBody_run (lib : Library κ) (w : World κ) (c : Call)
    (call : Invocation κ → Call → Eval Unit) (s : Session) :
    w.callBody lib c call s = match w.found lib c with
      | .error e => (.error e, { s with log := s.log ++ w.tells c })
      | .ok (_, i) => ExceptT.adapt (w.settle c) (i.body (runPieces (call i)))
          { s with log := s.log ++ w.tells c } := by
  rw [callBody, bind_run, resolve_run, found]
  cases w.looked lib c <;> rfl

end World

end Markup
